import MachineDeck.JsonText
import MachineDeck.LineText

/-!
# TOML documents, a line a statement

The part of TOML in which every statement is one line: comments, tables, and bare keys with
strings, decimal integers, booleans and arrays of these.  Other documents are refused.

* `readString`, `readValue`, `parseLine` — the reader of a line;
* `Toml`, `Document`, `loads` — values, and the tables of a whole text;
* `jsonString` — a string as JSON writes it when it does not escape what is not ASCII;
* `readString_jsonString` — such a string is read back, unless the delete character is in it;
* `parseLine_pair`, `loads_lines` — lines and whole documents.
-/

namespace TomlText

open JsonText (readUnit readUnit_hexUnit shortEscape unitEscape hexUnit)
open scoped LineText

/-- A value; of a date or a time its text. -/
inductive Toml where
  | str (value : String)
  | int (value : ℤ)
  | float (value : JsonText.Decimal)
  | bool (value : Bool)
  | time (text : String)
  | arr (items : List Toml)
  | table (entries : List (String × Toml))
  deriving Repr

abbrev Table := List (String × Toml)

/-! ### Strings -/

/-- The delete character. -/
def del : Char := '\x7f'

/-- The control characters that may stand in no string and in no comment. -/
def illegal (c : Char) : Bool := decide (c.toNat < 32 ∧ c ≠ '\t') || c == del

def readEscape : Char → Option Char
  | '"' => some '"'
  | '\\' => some '\\'
  | 'n' => some '\n'
  | 'r' => some '\r'
  | 't' => some '\t'
  | 'f' => some '\x0c'
  | 'b' => some '\x08'
  | _ => none

/-- The character of a number, unless it is a surrogate or too large. -/
def scalarChar (n : ℕ) : Option Char :=
  if n < 55296 ∨ 57344 ≤ n ∧ n < 1114112 then some (Char.ofNat n) else none

/-- One character of a string. -/
def readChar : List Char → Option (Char × List Char)
  | '\\' :: 'u' :: a :: b :: c :: d :: rest => do
    let n ← readUnit a b c d
    let c ← scalarChar n
    return (c, rest)
  | '\\' :: 'U' :: a :: b :: c :: d :: e :: f :: g :: h :: rest => do
    let high ← readUnit a b c d
    let low ← readUnit e f g h
    let c ← scalarChar (high * 65536 + low)
    return (c, rest)
  | '\\' :: e :: rest => (readEscape e).map fun c => (c, rest)
  | c :: rest => if c = '\\' ∨ illegal c = true then none else some (c, rest)
  | [] => none

/-- At most so many characters, up to the closing quote. -/
def readBody : ℕ → List Char → Option (List Char × List Char)
  | 0, _ => none
  | _ + 1, '"' :: rest => some ([], rest)
  | n + 1, text => do
    let (c, rest) ← readChar text
    let (body, rest) ← readBody n rest
    return (c :: body, rest)

/-- A string on one line, behind its opening quote. -/
def readString (text : List Char) : Option (Toml × List Char) :=
  if ['"', '"'].isPrefixOf text then none
  else (readBody text.length text).map fun (body, rest) => (.str (String.ofList body), rest)

/-! ### Values -/

def isBlank (c : Char) : Bool := c == ' ' || c == '\t'

def skip (text : List Char) : List Char := text.dropWhile isBlank

def readInteger (text : List Char) : Option (Toml × List Char) :=
  let (negative, text) := JsonText.readSign text
  (JsonText.readWhole text).map fun (digits, rest) =>
    (.int (JsonText.signed negative (JsonText.digitsValue digits)), rest)

def readScalar : List Char → Option (Toml × List Char)
  | '"' :: rest => readString rest
  | 't' :: 'r' :: 'u' :: 'e' :: rest => some (.bool true, rest)
  | 'f' :: 'a' :: 'l' :: 's' :: 'e' :: rest => some (.bool false, rest)
  | text => readInteger text

/-- At most so many items, up to the closing bracket. -/
def readItems : ℕ → List Char → Option (List Toml × List Char)
  | 0, _ => none
  | n + 1, text =>
    match skip text with
    | ']' :: rest => some ([], rest)
    | text => do
      let (item, rest) ← readScalar text
      match skip rest with
      | ']' :: rest => return ([item], rest)
      | ',' :: rest =>
        let (items, rest) ← readItems n rest
        return (item :: items, rest)
      | _ => none

def readValue : List Char → Option (Toml × List Char)
  | '[' :: rest => (readItems rest.length rest).map fun (items, rest) => (.arr items, rest)
  | text => readScalar text

/-! ### Lines -/

inductive Statement where
  | blank
  | table (name : String)
  | pair (key : String) (value : Toml)
  deriving Repr

def keyChar (c : Char) : Bool := c.isAlphanum || c == '_' || c == '-'

/-- Nothing, or a comment. -/
def endsWell (rest : List Char) : Bool :=
  match skip rest with
  | [] => true
  | '#' :: comment => comment.all fun c => !illegal c
  | _ => false

def parseTable (text : List Char) : Option Statement :=
  let name := (skip text).takeWhile keyChar
  match skip ((skip text).dropWhile keyChar) with
  | ']' :: rest =>
    if name ≠ [] ∧ endsWell rest = true then some (.table (String.ofList name)) else none
  | _ => none

def parsePair (text : List Char) : Option Statement :=
  let key := text.takeWhile keyChar
  match skip (text.dropWhile keyChar) with
  | '=' :: rest => do
    let (value, rest) ← readValue (skip rest)
    if key ≠ [] ∧ endsWell rest = true then some (.pair (String.ofList key) value) else none
  | _ => none

def parseLine (line : List Char) : Option Statement :=
  match skip line with
  | [] => some .blank
  | '#' :: comment => if comment.all fun c => !illegal c then some .blank else none
  | '[' :: rest => parseTable rest
  | text => parsePair text

/-! ### Documents -/

/-- The keys before the first table, and the tables, the last one first. -/
structure Document where
  root : Table := []
  tables : List (String × Table) := []
  deriving Repr

def defines {α : Type} (entries : List (String × α)) (key : String) : Bool :=
  entries.any fun entry => entry.1 == key

/-- Nothing is declared twice. -/
def Document.add (document : Document) : Statement → Option Document
  | .blank => some document
  | .table name =>
    if defines document.root name || defines document.tables name then none
    else some { document with tables := (name, []) :: document.tables }
  | .pair key value =>
    match document.tables with
    | [] =>
      if defines document.root key then none
      else some { document with root := document.root ++ [(key, value)] }
    | (name, entries) :: older =>
      if defines entries key then none
      else some { document with tables := (name, entries ++ [(key, value)]) :: older }

def Document.table (document : Document) : Table :=
  document.root ++ document.tables.reverse.map fun entry => (entry.1, .table entry.2)

/-- `src.replace("\r\n", "\n")`. -/
def unixLines : List Char → List Char
  | '\r' :: '\n' :: rest => '\n' :: unixLines rest
  | c :: rest => c :: unixLines rest
  | [] => []

def loads (text : String) : Option Table := do
  let statements ← ((unixLines text.toList).splitOn '\n').mapM parseLine
  let document ← statements.foldlM Document.add {}
  return document.table

/-! ### Strings written by JSON -/

/-- Only quotes, backslashes and the control characters below the blank are escaped. -/
def writeChar (c : Char) : List Char :=
  match shortEscape c with
  | some e => ['\\', e]
  | none => if c.toNat < 32 then unitEscape c.toNat else [c]

def jsonString (s : List Char) : List Char := '"' :: (s.flatMap writeChar ++ ['"'])

theorem readEscape_of_shortEscape {c e : Char} (h : shortEscape c = some e) :
    readEscape e = some c ∧ e ≠ 'u' ∧ e ≠ 'U' := by
  unfold shortEscape at h
  split at h <;> cases h <;> decide

theorem writeChar_head (c : Char) (rest : List Char) :
    ∃ d text, writeChar c ++ rest = d :: text ∧ d ≠ '"' := by
  unfold writeChar
  cases hshort : shortEscape c with
  | some e => exact ⟨'\\', e :: rest, rfl, by decide⟩
  | none =>
    have hquote : c ≠ '"' := by
      rintro rfl
      cases hshort
    simp only
    split_ifs
    · exact ⟨'\\', _, rfl, by decide⟩
    · exact ⟨c, rest, rfl, hquote⟩

theorem readChar_writeChar {c : Char} (hc : c ≠ del) (rest : List Char) :
    readChar (writeChar c ++ rest) = some (c, rest) := by
  unfold writeChar
  cases hshort : shortEscape c with
  | some e =>
    obtain ⟨hread, hu, hlong⟩ := readEscape_of_shortEscape hshort
    simp [readChar, hu, hlong, hread]
  | none =>
    have hslash : c ≠ '\\' := by
      rintro rfl
      cases hshort
    by_cases hcontrol : c.toNat < 32
    · have hscalar : scalarChar c.toNat = some c := by
        rw [scalarChar, if_pos (by omega), Char.ofNat_toNat]
      simp [hcontrol, unitEscape, hexUnit, readChar, readUnit_hexUnit (by omega : c.toNat < 65536),
        hscalar]
    · have hlegal : illegal c = false := by simp [illegal, hcontrol, hc]
      simp [hcontrol, readChar, hslash, hlegal]

theorem readChar_del (rest : List Char) : readChar (writeChar del ++ rest) = none := by
  have hwrite : writeChar del = [del] := by decide
  have hillegal : illegal del = true := by decide
  rw [hwrite, List.singleton_append]
  simp [readChar, hillegal, show del ≠ '\\' by decide]

/-- What follows in the body of a string is no quote where a character was written. -/
theorem readBody_writeChar (n : ℕ) (c : Char) (rest : List Char) :
    readBody (n + 1) (writeChar c ++ rest) = (readChar (writeChar c ++ rest)).bind fun read =>
      (readBody n read.2).bind fun body => some (read.1 :: body.1, body.2) := by
  obtain ⟨d, text, htext, hd⟩ := writeChar_head c rest
  rw [htext, readBody]
  · rfl
  · rintro rest' h
    exact hd (List.cons.inj h).1

theorem readBody_write {s : List Char} (hs : del ∉ s) (rest : List Char) {n : ℕ}
    (hn : s.length < n) : readBody n (s.flatMap writeChar ++ '"' :: rest) = some (s, rest) := by
  induction s generalizing n with
  | nil =>
    cases n with
    | zero => omega
    | succ n => rfl
  | cons c s ih =>
    cases n with
    | zero => omega
    | succ n =>
      have hc : c ≠ del := fun h => hs (h ▸ List.mem_cons_self)
      have hrest := ih (fun h => hs (List.mem_cons_of_mem c h)) (Nat.lt_of_succ_lt_succ hn)
      rw [List.flatMap_cons, List.append_assoc, readBody_writeChar, readChar_writeChar hc,
        Option.bind_some, hrest]
      rfl

theorem readBody_del {s : List Char} (hs : del ∈ s) (rest : List Char) (n : ℕ) :
    readBody n (s.flatMap writeChar ++ rest) = none := by
  induction s generalizing n with
  | nil => cases hs
  | cons c s ih =>
    cases n with
    | zero => rfl
    | succ n =>
      rw [List.flatMap_cons, List.append_assoc, readBody_writeChar]
      by_cases hc : c = del
      · rw [hc, readChar_del]
        rfl
      · have hrest := ih ((List.mem_cons.mp hs).resolve_left (Ne.symm hc)) n
        rw [readChar_writeChar hc, Option.bind_some, hrest]
        rfl

theorem length_flatMap_writeChar (s : List Char) : s.length ≤ (s.flatMap writeChar).length := by
  induction s with
  | nil => exact Nat.le_refl 0
  | cons c s ih =>
    obtain ⟨d, text, htext, -⟩ := writeChar_head c []
    rw [List.append_nil] at htext
    rw [List.flatMap_cons, List.length_append, htext, List.length_cons, List.length_cons]
    omega

/-- No quotes open a string of several lines. -/
theorem single_line {s rest : List Char} (hrest : rest.head? ≠ some '"') :
    ['"', '"'].isPrefixOf (s.flatMap writeChar ++ '"' :: rest) = false := by
  cases s with
  | nil =>
    cases rest with
    | nil => rfl
    | cons c rest =>
      have hc : c ≠ '"' := fun h => hrest (by rw [h]; rfl)
      simp [List.isPrefixOf, Ne.symm hc]
  | cons c s =>
    obtain ⟨d, text, htext, hd⟩ := writeChar_head c (s.flatMap writeChar ++ '"' :: rest)
    rw [List.flatMap_cons, List.append_assoc, htext]
    simp [List.isPrefixOf, Ne.symm hd]

theorem jsonString_append (s rest : List Char) :
    jsonString s ++ rest = '"' :: (s.flatMap writeChar ++ '"' :: rest) := by
  simp [jsonString]

/-- **A string written by JSON is read back** where the delete character is not in it. -/
theorem readScalar_jsonString {s : List Char} (hs : del ∉ s) {rest : List Char}
    (hrest : rest.head? ≠ some '"') :
    readScalar (jsonString s ++ rest) = some (.str (String.ofList s), rest) := by
  have hlength : s.length < (s.flatMap writeChar ++ '"' :: rest).length := by
    have hle := length_flatMap_writeChar s
    rw [List.length_append, List.length_cons]
    omega
  rw [jsonString_append, readScalar, readString, single_line hrest, readBody_write hs rest hlength]
  rfl

/-- Where it is, the string is not read at all. -/
theorem readScalar_del {s : List Char} (hs : del ∈ s) (rest : List Char) :
    readScalar (jsonString s ++ rest) = none := by
  rw [jsonString_append, readScalar, readString, readBody_del hs]
  simp

/-! ### Arrays written by JSON -/

def jsonItems (items : List (List Char)) : List Char :=
  [',', ' '].intercalate (items.map jsonString)

theorem jsonItems_cons (s t : List Char) (items : List (List Char)) (rest : List Char) :
    jsonItems (s :: t :: items) ++ rest =
      jsonString s ++ ',' :: ' ' :: (jsonItems (t :: items) ++ rest) := by
  simp [jsonItems, List.intercalate_cons_cons]

theorem jsonItems_singleton (s rest : List Char) :
    jsonItems [s] ++ rest = jsonString s ++ rest := by
  simp [jsonItems]

theorem skip_jsonString (s rest : List Char) : skip (jsonString s ++ rest) = jsonString s ++ rest := by
  rw [jsonString_append]
  rfl

theorem readItems_blank (n : ℕ) (text : List Char) :
    readItems n (' ' :: text) = readItems n text := by
  cases n with
  | zero => rfl
  | succ n => rfl

/-- The first item, and what stands behind it. -/
theorem readItems_jsonString (n : ℕ) (s rest : List Char) :
    readItems (n + 1) (jsonString s ++ rest) = (readScalar (jsonString s ++ rest)).bind fun read =>
      match skip read.2 with
      | ']' :: rest => some ([read.1], rest)
      | ',' :: rest => (readItems n rest).bind fun items => some (read.1 :: items.1, items.2)
      | _ => none := by
  rw [readItems, skip_jsonString, jsonString_append]
  rfl

theorem readItems_json {items : List (List Char)} (h : ∀ s ∈ items, del ∉ s) (rest : List Char)
    {n : ℕ} (hn : items.length < n) :
    readItems n (jsonItems items ++ ']' :: rest) =
      some (items.map fun s => .str (String.ofList s), rest) := by
  induction items generalizing n with
  | nil =>
    cases n with
    | zero => omega
    | succ n => rfl
  | cons s items ih =>
    have hs := h s List.mem_cons_self
    cases n with
    | zero => omega
    | succ n =>
      cases items with
      | nil =>
        rw [jsonItems_singleton, readItems_jsonString,
          readScalar_jsonString hs (show (']' :: rest).head? ≠ some '"' by simp)]
        rfl
      | cons t items =>
        have hrest := ih (fun s hs => h s (List.mem_cons_of_mem _ hs)) (Nat.lt_of_succ_lt_succ hn)
        rw [jsonItems_cons, readItems_jsonString,
          readScalar_jsonString hs (by simp), Option.bind_some]
        show (readItems n (' ' :: (jsonItems (t :: items) ++ ']' :: rest))).bind _ = _
        rw [readItems_blank, hrest]
        rfl

theorem readItems_del {items : List (List Char)} (h : ∃ s ∈ items, del ∈ s) (rest : List Char)
    (n : ℕ) : readItems n (jsonItems items ++ rest) = none := by
  induction items generalizing n with
  | nil =>
    obtain ⟨s, hs, -⟩ := h
    cases hs
  | cons s items ih =>
    cases n with
    | zero => rfl
    | succ n =>
      cases items with
      | nil =>
        obtain ⟨s', hs', hdel⟩ := h
        rw [List.mem_singleton.mp hs'] at hdel
        rw [jsonItems_singleton, readItems_jsonString, readScalar_del hdel]
        rfl
      | cons t items =>
        rw [jsonItems_cons, readItems_jsonString]
        by_cases hs : del ∈ s
        · rw [readScalar_del hs]
          rfl
        · have hlater : ∃ s ∈ t :: items, del ∈ s := by
            obtain ⟨s', hs', hdel⟩ := h
            rcases List.mem_cons.mp hs' with rfl | hs'
            · exact absurd hdel hs
            · exact ⟨s', hs', hdel⟩
          rw [readScalar_jsonString hs (by simp), Option.bind_some]
          show (readItems n (' ' :: (jsonItems (t :: items) ++ rest))).bind _ = _
          rw [readItems_blank, ih hlater]
          rfl

theorem length_jsonItems (items : List (List Char)) : items.length ≤ (jsonItems items).length := by
  induction items with
  | nil => exact Nat.le_refl 0
  | cons s items ih =>
    cases items with
    | nil => simp [jsonItems, jsonString]
    | cons t items =>
      have hcons := congrArg List.length (jsonItems_cons s t items [])
      simp only [List.append_nil, List.length_append, List.length_cons] at hcons ih ⊢
      omega

def jsonArray (items : List (List Char)) : List Char := '[' :: (jsonItems items ++ [']'])

/-! ### Lines written with JSON -/

theorem readValue_jsonString {s : List Char} (hs : del ∉ s) :
    readValue (jsonString s) = some (.str (String.ofList s), []) := by
  have hread := readScalar_jsonString hs (show ([] : List Char).head? ≠ some '"' by simp)
  rw [List.append_nil] at hread
  exact hread

theorem readValue_jsonString_del {s : List Char} (hs : del ∈ s) :
    readValue (jsonString s) = none := by
  have hread := readScalar_del hs []
  rw [List.append_nil] at hread
  exact hread

theorem readValue_jsonArray {items : List (List Char)} (h : ∀ s ∈ items, del ∉ s) :
    readValue (jsonArray items) =
      some (.arr (items.map fun s => .str (String.ofList s)), []) := by
  have hlength : items.length < (jsonItems items ++ [']']).length := by
    have hle := length_jsonItems items
    rw [List.length_append, List.length_singleton]
    omega
  show (readItems _ (jsonItems items ++ [']'])).map _ = _
  rw [readItems_json h [] hlength]
  rfl

theorem readValue_jsonArray_del {items : List (List Char)} (h : ∃ s ∈ items, del ∈ s) :
    readValue (jsonArray items) = none := by
  show (readItems _ (jsonItems items ++ [']'])).map _ = _
  rw [readItems_del h]
  rfl

/-- A bare key. -/
def BareKey (key : List Char) : Prop := key ≠ [] ∧ ∀ c ∈ key, keyChar c = true

instance (key : List Char) : Decidable (BareKey key) := inferInstanceAs (Decidable (_ ∧ _))

/-- A key, and a value that does not begin with a blank. -/
theorem parseLine_pair {key : List Char} (hkey : BareKey key) {c : Char} (hc : isBlank c = false)
    (text : List Char) :
    parseLine (key ++ " = ".toList ++ c :: text) = (readValue (c :: text)).bind fun read =>
      if endsWell read.2 = true then some (.pair (String.ofList key) read.1) else none := by
  obtain ⟨hne, hall⟩ := hkey
  have htake : (key ++ ' ' :: '=' :: ' ' :: c :: text).takeWhile keyChar = key := by
    rw [List.takeWhile_append_of_pos hall]
    simp [keyChar]
  have hdrop : (key ++ ' ' :: '=' :: ' ' :: c :: text).dropWhile keyChar =
      ' ' :: '=' :: ' ' :: c :: text := by
    rw [List.dropWhile_append_of_pos hall]
    simp [keyChar]
  have hskip : skip (' ' :: c :: text) = c :: text := by
    rw [skip, List.dropWhile_cons_of_pos (by decide), List.dropWhile_cons_of_neg (by simp [hc])]
  have hline : key ++ " = ".toList ++ c :: text = key ++ ' ' :: '=' :: ' ' :: c :: text := by simp
  have hpair : parsePair (key ++ ' ' :: '=' :: ' ' :: c :: text) =
      (readValue (c :: text)).bind fun read =>
        if endsWell read.2 = true then some (.pair (String.ofList key) read.1) else none := by
    rw [parsePair, htake, hdrop]
    show (readValue (skip (' ' :: c :: text))).bind _ = _
    rw [hskip]
    simp only [hne, ne_eq, not_false_eq_true, true_and]
  rw [hline, ← hpair]
  cases key with
  | nil => exact absurd rfl hne
  | cons d key =>
    have hd : isBlank d = false ∧ d ≠ '#' ∧ d ≠ '[' := by
      have hkey := hall d List.mem_cons_self
      refine ⟨?_, ?_, ?_⟩
      · by_contra hblank
        have hcases : d = ' ' ∨ d = '\t' := by
          simpa only [isBlank, Bool.not_eq_false, Bool.or_eq_true, beq_iff_eq] using hblank
        rcases hcases with rfl | rfl <;> exact absurd hkey (by decide)
      · rintro rfl
        exact absurd hkey (by decide)
      · rintro rfl
        exact absurd hkey (by decide)
    simp [parseLine, skip, hd]

/-! ### Whole texts -/

theorem unixLines_plain {text : List Char} (h : '\r' ∉ text) : unixLines text = text := by
  induction text with
  | nil => rfl
  | cons c text ih =>
    have hc : c ≠ '\r' := fun heq => h (heq ▸ List.mem_cons_self)
    have hrest := ih fun hmem => h (List.mem_cons_of_mem c hmem)
    cases text with
    | nil => simp [unixLines]
    | cons d text => simp [unixLines, hc, hrest]

/-- Lines, each with its newline. -/
def unlines (lines : List (List Char)) : List Char := lines.flatMap fun line => line ++ ['\n']

/-- Neither a newline nor a carriage return. -/
def OneLine (line : List Char) : Prop := '\n' ∉ line ∧ '\r' ∉ line

theorem splitOn_unlines {lines : List (List Char)} (h : ∀ line ∈ lines, OneLine line) :
    (unlines lines).splitOn '\n' = lines ++ [[]] := by
  induction lines with
  | nil => rfl
  | cons line lines ih =>
    have hrest := ih fun l hl => h l (List.mem_cons_of_mem line hl)
    show (line ++ ['\n'] ++ unlines lines).splitOn '\n' = _
    rw [List.append_assoc, List.singleton_append,
      List.splitOn_append_cons_self_of_not_mem (h line List.mem_cons_self).1, hrest]
    rfl

/-- A text made of lines is read line by line. -/
theorem loads_unlines {lines : List (List Char)} (h : ∀ line ∈ lines, OneLine line) :
    loads (String.ofList (unlines lines)) =
      (lines.mapM parseLine).bind fun statements =>
        (statements.foldlM Document.add {}).map Document.table := by
  have hplain : '\r' ∉ unlines lines := by
    intro hmem
    obtain ⟨line, hline, hc⟩ := List.mem_flatMap.mp hmem
    rcases List.mem_append.mp hc with hc | hc
    · exact (h line hline).2 hc
    · exact absurd hc (by decide)
  rw [loads, String.toList_ofList, unixLines_plain hplain, splitOn_unlines h, List.mapM_append]
  cases lines.mapM parseLine with
  | none => rfl
  | some statements =>
    show ((statements ++ [Statement.blank]).foldlM Document.add {}).bind _ =
      (statements.foldlM Document.add {}).map Document.table
    rw [List.foldlM_append]
    cases statements.foldlM Document.add {} <;> rfl

/-- One refused line refuses the text. -/
theorem loads_refused {lines : List (List Char)} (h : ∀ line ∈ lines, OneLine line)
    {line : List Char} (hline : line ∈ lines) (hrefused : parseLine line = none) :
    loads (String.ofList (unlines lines)) = none := by
  have hnone : lines.mapM parseLine = none := by
    obtain ⟨front, back, rfl⟩ := List.append_of_mem hline
    rw [List.mapM_append, List.mapM_cons, hrefused]
    cases front.mapM parseLine <;> rfl
  rw [loads_unlines h, hnone]
  rfl

/-- Nothing that is written breaks its line. -/
theorem writeChar_plain {c d : Char} (h : d ∈ writeChar c) : 32 ≤ d.toNat := by
  have hhex : ∀ n < 16, 32 ≤ (HexDigits.hexDigit n).toNat := by decide
  unfold writeChar at h
  cases hshort : shortEscape c with
  | some e =>
    rw [hshort] at h
    have he : 32 ≤ e.toNat := by
      unfold shortEscape at hshort
      split at hshort <;> cases hshort <;> decide
    rcases List.mem_cons.mp h with rfl | h
    · decide
    · rw [List.mem_singleton.mp h]
      exact he
  | none =>
    rw [hshort] at h
    simp only at h
    split_ifs at h with hcontrol
    · simp only [unitEscape, hexUnit, List.mem_cons, List.not_mem_nil, or_false] at h
      rcases h with rfl | rfl | rfl | rfl | rfl | rfl
      · decide
      · decide
      all_goals exact hhex _ (Nat.mod_lt _ (by decide))
    · rw [List.mem_singleton.mp h]
      omega

theorem jsonString_plain {s : List Char} {d : Char} (h : d ∈ jsonString s) : 32 ≤ d.toNat := by
  simp only [jsonString, List.mem_cons, List.mem_append, List.mem_flatMap, List.not_mem_nil,
    or_false] at h
  rcases h with rfl | ⟨c, -, hd⟩ | rfl
  · decide
  · exact writeChar_plain hd
  · decide

theorem jsonArray_plain {items : List (List Char)} {d : Char} (h : d ∈ jsonArray items) :
    32 ≤ d.toNat := by
  have hitems : ∀ items : List (List Char), d ∈ jsonItems items → 32 ≤ d.toNat := by
    intro items
    induction items with
    | nil => intro h; cases h
    | cons s items ih =>
      intro h
      cases items with
      | nil =>
        have hsingle := jsonItems_singleton s []
        simp only [List.append_nil] at hsingle
        rw [hsingle] at h
        exact jsonString_plain h
      | cons t items =>
        have hcons := jsonItems_cons s t items []
        simp only [List.append_nil] at hcons
        rw [hcons] at h
        simp only [List.mem_append, List.mem_cons] at h
        rcases h with h | rfl | rfl | h
        · exact jsonString_plain h
        · decide
        · decide
        · exact ih h
  simp only [jsonArray, List.mem_cons, List.mem_append, List.not_mem_nil, or_false] at h
  rcases h with rfl | h | rfl
  · decide
  · exact hitems items h
  · decide

theorem oneLine_of_plain {line : List Char} (h : ∀ c ∈ line, 32 ≤ c.toNat) : OneLine line :=
  ⟨fun hmem => absurd (h _ hmem) (by decide), fun hmem => absurd (h _ hmem) (by decide)⟩

end TomlText

import Mathlib.Data.List.Basic

/-!
# Prefix codes

A code gives each symbol a nonempty word such that one word can be read off the front of any
sequence of words.  Codes are built from codes, and what is written with one is read back.

* `PrefixCode` — the words and their reader, with the law that the reader takes back one word;
* `PrefixCode.escaping` — symbols of which some are written behind a leading symbol;
* `PrefixCode.after`, `PrefixCode.delimited` — words behind a separator, sequences between an
  opening and a closing symbol;
* `decode_encodeAll`, `decodeSeparated_encode` — sequences of words are read back as a whole.

Nothing here knows any particular alphabet.
-/

/-- Words over `β` for the symbols of `α`, with a reader of one word. -/
structure PrefixCode (α β : Type) where
  encode : α → List β
  read : List β → Option (α × List β)
  encode_ne_nil : ∀ a, encode a ≠ []
  read_encode : ∀ a rest, read (encode a ++ rest) = some (a, rest)

namespace PrefixCode

variable {α β : Type}

/-! ### Sequences of words -/

def encodeAll (code : PrefixCode α β) (symbols : List α) : List β :=
  symbols.flatMap code.encode

@[simp] theorem encodeAll_nil (code : PrefixCode α β) : code.encodeAll [] = [] := rfl

@[simp] theorem encodeAll_cons (code : PrefixCode α β) (a : α) (symbols : List α) :
    code.encodeAll (a :: symbols) = code.encode a ++ code.encodeAll symbols := rfl

theorem length_encodeAll (code : PrefixCode α β) (symbols : List α) :
    symbols.length ≤ (code.encodeAll symbols).length := by
  induction symbols with
  | nil => exact Nat.le_refl 0
  | cons a symbols ih =>
      have hword : 0 < (code.encode a).length :=
        List.length_pos_iff.mpr (code.encode_ne_nil a)
      rw [encodeAll_cons, List.length_append, List.length_cons]
      omega

/-- At most `n` words are read, and the text has to end after the last one. -/
def decodeWithin (code : PrefixCode α β) : ℕ → List β → Option (List α)
  | _, [] => some []
  | 0, _ :: _ => none
  | n + 1, c :: cs => do
    let (a, rest) ← code.read (c :: cs)
    let symbols ← decodeWithin code n rest
    return a :: symbols

/-- Every word of the text; there are no more words than symbols of the text. -/
def decode (code : PrefixCode α β) (text : List β) : Option (List α) :=
  code.decodeWithin text.length text

theorem decodeWithin_encodeAll (code : PrefixCode α β) (symbols : List α) (n : ℕ)
    (hn : symbols.length ≤ n) : code.decodeWithin n (code.encodeAll symbols) = some symbols := by
  induction symbols generalizing n with
  | nil => cases n <;> rfl
  | cons a symbols ih =>
      cases n with
      | zero => exact absurd hn (Nat.not_succ_le_zero _)
      | succ n =>
          have hread := code.read_encode a (code.encodeAll symbols)
          have hrest := ih n (Nat.le_of_succ_le_succ hn)
          rw [encodeAll_cons]
          cases htext : code.encode a ++ code.encodeAll symbols with
          | nil => exact absurd (List.append_eq_nil_iff.mp htext).1 (code.encode_ne_nil a)
          | cons c cs =>
              rw [htext] at hread
              simp [decodeWithin, hread, hrest]

/-- What is written is read back. -/
theorem decode_encodeAll (code : PrefixCode α β) (symbols : List α) :
    code.decode (code.encodeAll symbols) = some symbols :=
  code.decodeWithin_encodeAll symbols _ (code.length_encodeAll symbols)

/-! ### Escaping -/

/-- Each symbol behind its leading symbol, if it has one.  A leading symbol has one itself. -/
def escaping [DecidableEq α] (lead : α → Option α)
    (hlead : ∀ a l, lead a = some l → (lead l).isSome = true) : PrefixCode α α where
  encode a := (lead a).toList ++ [a]
  read
    | [] => none
    | [c] => if (lead c).isSome then none else some (c, [])
    | c :: d :: rest =>
      if (lead c).isSome then
        if lead d = some c then some (d, rest) else none
      else some (c, d :: rest)
  encode_ne_nil a := by simp
  read_encode a rest := by
    cases ha : lead a with
    | none => cases rest <;> simp [ha]
    | some l => simp [ha, hlead a l ha]

/-! ### Separators and delimiters -/

/-- Each word behind a separator. -/
def after [DecidableEq β] (separator : β) (code : PrefixCode α β) : PrefixCode α β where
  encode a := separator :: code.encode a
  read
    | [] => none
    | c :: rest => if c = separator then code.read rest else none
  encode_ne_nil a := List.cons_ne_nil _ _
  read_encode a rest := by simp [code.read_encode]

/-- Words up to the closing symbol, at most `n` of them. -/
def readUntil [DecidableEq β] (closing : β) (code : PrefixCode α β) :
    ℕ → List β → Option (List α × List β)
  | _, [] => none
  | 0, _ :: _ => none
  | n + 1, c :: cs =>
    if c = closing then some ([], cs)
    else do
      let (a, rest) ← code.read (c :: cs)
      let (symbols, rest) ← readUntil closing code n rest
      return (a :: symbols, rest)

theorem readUntil_encodeAll [DecidableEq β] (closing : β) (code : PrefixCode α β)
    (hclosing : ∀ a, (code.encode a).head? ≠ some closing) (symbols : List α) (rest : List β)
    (n : ℕ) (hn : symbols.length < n) :
    code.readUntil closing n (code.encodeAll symbols ++ closing :: rest) =
      some (symbols, rest) := by
  induction symbols generalizing n with
  | nil =>
      cases n with
      | zero => exact absurd hn (Nat.not_lt_zero _)
      | succ n => simp [readUntil]
  | cons a symbols ih =>
      cases n with
      | zero => exact absurd hn (Nat.not_lt_zero _)
      | succ n =>
          have hread := code.read_encode a (code.encodeAll symbols ++ closing :: rest)
          have hrest := ih n (Nat.lt_of_succ_lt_succ hn)
          have hfirst := hclosing a
          rw [encodeAll_cons, List.append_assoc]
          cases hword : code.encode a with
          | nil => exact absurd hword (code.encode_ne_nil a)
          | cons c cs =>
              rw [hword] at hread hfirst
              have hc : c ≠ closing := fun h => hfirst (by rw [h]; rfl)
              rw [List.cons_append] at hread ⊢
              simp [readUntil, hc, hread, hrest]

/-- A sequence of words between an opening and a closing symbol. -/
def delimited [DecidableEq β] (opening closing : β) (code : PrefixCode α β)
    (hclosing : ∀ a, (code.encode a).head? ≠ some closing) : PrefixCode (List α) β where
  encode symbols := opening :: (code.encodeAll symbols ++ [closing])
  read
    | [] => none
    | c :: cs => if c = opening then code.readUntil closing cs.length cs else none
  encode_ne_nil symbols := List.cons_ne_nil _ _
  read_encode symbols rest := by
    have hlength := code.length_encodeAll symbols
    have hread := code.readUntil_encodeAll closing hclosing symbols rest
      (code.encodeAll symbols ++ closing :: rest).length
      (by rw [List.length_append, List.length_cons]; omega)
    simpa using hread

/-! ### Separated words -/

/-- Words with a separator between each two. -/
def encodeSeparated (separator : β) (code : PrefixCode α β) (symbols : List α) : List β :=
  [separator].intercalate (symbols.map code.encode)

/-- A first word, and every other word behind a separator. -/
def decodeSeparated [DecidableEq β] (separator : β) (code : PrefixCode α β) (text : List β) :
    Option (List α) := do
  let (a, rest) ← code.read text
  let symbols ← (code.after separator).decode rest
  return a :: symbols

theorem encodeSeparated_cons [DecidableEq β] (separator : β) (code : PrefixCode α β) (a : α)
    (symbols : List α) :
    code.encodeSeparated separator (a :: symbols) =
      code.encode a ++ (code.after separator).encodeAll symbols := by
  induction symbols generalizing a with
  | nil => simp [encodeSeparated]
  | cons b symbols ih =>
      have hrest := ih b
      rw [encodeSeparated, List.map_cons] at hrest
      rw [encodeSeparated, List.map_cons, List.map_cons, List.intercalate_cons_cons, hrest]
      simp [after]

/-- A nonempty sequence of separated words is read back. -/
theorem decodeSeparated_encode [DecidableEq β] (separator : β) (code : PrefixCode α β)
    (symbols : List α) (hne : symbols ≠ []) :
    code.decodeSeparated separator (code.encodeSeparated separator symbols) = some symbols := by
  cases symbols with
  | nil => exact absurd rfl hne
  | cons a symbols =>
      rw [encodeSeparated_cons, decodeSeparated, code.read_encode]
      simp [decode_encodeAll]

end PrefixCode

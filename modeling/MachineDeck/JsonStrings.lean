import MachineDeck.JsonExtent
import MachineDeck.TomlText

/-!
# Strings written by JSON, read by JSON

A string, or an array of strings, that was written without escapes for what is not ASCII.

* `plainString` — the words of such strings, with the reader of `JsonText`;
* `loads_jsonString`, `loads_jsonArray` — a string and an array of strings are read back;
* `loads_array_cut` — an array is not read when it is cut off behind its opening bracket.
-/

namespace TomlText

open JsonText (Json Machine LoadsError asciiChar quotedString shortEscape readShortEscape_of_shortEscape
  shortEscape_ne_u readEscaped readChar_unitEscape valueStep skip_cons Opens)

/-! ### Characters -/

theorem json_readChar_writeChar (c : Char) (rest : List Char) :
    JsonText.readChar (writeChar c ++ rest) = some (c, rest) := by
  unfold writeChar
  cases hshort : shortEscape c with
  | some e =>
    have hu := shortEscape_ne_u hshort
    simp [JsonText.readChar, hu, readShortEscape_of_shortEscape hshort]
  | none =>
    have hslash : c ≠ '\\' := by
      rintro rfl
      cases hshort
    by_cases hcontrol : c.toNat < 32
    · simp only [hcontrol, if_true]
      rw [readChar_unitEscape (by omega), readEscaped, if_neg (by omega), if_neg (by omega),
        Char.ofNat_toNat]
    · simp [hcontrol, JsonText.readChar, hslash]

theorem writeChar_ne_nil (c : Char) : writeChar c ≠ [] := by
  obtain ⟨d, text, htext, -⟩ := writeChar_head c []
  rw [List.append_nil] at htext
  rw [htext]
  exact List.cons_ne_nil d text

theorem writeChar_head_ne (c : Char) : (writeChar c).head? ≠ some '"' := by
  obtain ⟨d, text, htext, hd⟩ := writeChar_head c []
  rw [List.append_nil] at htext
  rw [htext]
  exact fun h => hd (Option.some.inj h)

/-- The words of the characters of a string, as few of them escaped as JSON allows. -/
def plainChar : PrefixCode Char Char where
  encode := writeChar
  read := JsonText.readChar
  encode_ne_nil := writeChar_ne_nil
  read_encode := json_readChar_writeChar

/-- A string in its quotes. -/
def plainString : PrefixCode (List Char) Char := plainChar.delimited '"' '"' writeChar_head_ne

theorem plainString_encode (s : List Char) : plainString.encode s = jsonString s := rfl

/-- Reading does not know how a string was written. -/
theorem quotedString_read (text : List Char) : quotedString.read text = plainString.read text := by
  have hbody : ∀ (n : ℕ) (text : List Char),
      asciiChar.readUntil '"' n text = plainChar.readUntil '"' n text := by
    intro n
    induction n with
    | zero =>
      intro text
      cases text <;> rfl
    | succ n ih =>
      intro text
      cases text with
      | nil => rfl
      | cons c cs =>
        show (if c = '"' then some ([], cs) else (JsonText.readChar (c :: cs)).bind _) =
          (if c = '"' then some ([], cs) else (JsonText.readChar (c :: cs)).bind _)
        simp only [ih]
  cases text with
  | nil => rfl
  | cons c cs =>
    show (if c = '"' then asciiChar.readUntil '"' cs.length cs else none) =
      (if c = '"' then plainChar.readUntil '"' cs.length cs else none)
    rw [hbody]

theorem quotedString_jsonString (s rest : List Char) :
    quotedString.read (jsonString s ++ rest) = some (s, rest) := by
  rw [quotedString_read, ← plainString_encode]
  exact plainString.read_encode s rest

/-! ### The reader on strings -/

variable {limit : ℕ}

theorem valueStep_jsonString (limit : ℕ) (stack : List JsonText.Frame) (s rest : List Char) :
    valueStep limit stack (jsonString s ++ rest) =
      .ok ⟨stack, .done (.str (String.ofList s)), rest⟩ := by
  have hread := quotedString_jsonString s rest
  rw [jsonString_append] at hread ⊢
  simp [valueStep, JsonText.readScalar, hread]

theorem json_skip_jsonString (s rest : List Char) :
    JsonText.skip (jsonString s ++ rest) = jsonString s ++ rest := by
  rw [jsonString_append]
  exact skip_cons (by decide) _

theorem head_mark {c : Char} (hc : c ≠ '\uFEFF') (text : List Char) :
    (String.ofList (c :: text)).toList.head? ≠ some '\uFEFF' := by
  rw [String.toList_ofList]
  exact fun h => hc (Option.some.inj h)

/-- **A string is read back.** -/
theorem loads_jsonString (limit : ℕ) (s : List Char) :
    JsonText.loads limit (String.ofList (jsonString s)) = .ok (.str (String.ofList s)) := by
  have hvalue : Machine.step limit ⟨[], .value, jsonString s ++ []⟩ =
      .ok (.inl ⟨[], .done (.str (String.ofList s)), []⟩) := by
    simp only [Machine.step, json_skip_jsonString, valueStep_jsonString, Except.map]
  have hmark : (String.ofList (jsonString s)).toList.head? ≠ some '\uFEFF' := by
    rw [jsonString]
    exact head_mark (by decide) _
  rw [JsonText.loads, if_neg hmark, String.toList_ofList, ← List.append_nil (jsonString s),
    Machine.run_step hvalue]
  exact Machine.run_done rfl

/-- What follows an item of an array. -/
def itemsBehind : List (List Char) → List Char
  | [] => [']']
  | t :: items => ',' :: ' ' :: (jsonItems (t :: items) ++ [']'])

theorem jsonItems_behind (s : List Char) (items : List (List Char)) :
    jsonItems (s :: items) ++ [']'] = jsonString s ++ itemsBehind items := by
  cases items with
  | nil => exact jsonItems_singleton s [']']
  | cons t items => exact jsonItems_cons s t items [']']

/-- The items from the second on, and the end of the array. -/
theorem run_itemsBehind (before : List Json) (v : Json) (items : List (List Char)) :
    Machine.run limit ⟨[.arr before], .done v, itemsBehind items⟩ =
      .ok (.arr (before ++ v :: items.map fun s => .str (String.ofList s))) := by
  induction items generalizing before v with
  | nil =>
    have hclose : Machine.step limit ⟨[.arr before], .done v, [']']⟩ =
        .ok (.inl ⟨[], .done (.arr (before ++ [v])), []⟩) := rfl
    show Machine.run limit ⟨[.arr before], .done v, [']']⟩ = _
    rw [Machine.run_step hclose]
    exact Machine.run_done rfl
  | cons t items ih =>
    have hcomma (rest : List Char) : Machine.step limit ⟨[.arr before], .done v, ',' :: rest⟩ =
        .ok (.inl ⟨[.arr (before ++ [v])], .value, rest⟩) := rfl
    have hblank : JsonText.skip (' ' :: (jsonString t ++ itemsBehind items)) =
        jsonString t ++ itemsBehind items := json_skip_jsonString t (itemsBehind items)
    have hvalue : Machine.step limit
        ⟨[.arr (before ++ [v])], .value, ' ' :: (jsonString t ++ itemsBehind items)⟩ =
          .ok (.inl ⟨[.arr (before ++ [v])], .done (.str (String.ofList t)), itemsBehind items⟩) := by
      simp only [Machine.step, hblank, valueStep_jsonString, Except.map]
    show Machine.run limit
      ⟨[.arr before], .done v, ',' :: ' ' :: (jsonItems (t :: items) ++ [']'])⟩ = _
    rw [jsonItems_behind, Machine.run_step (hcomma _), Machine.run_step hvalue, ih]
    simp

/-- **An array of strings is read back**, where an array may be open at all. -/
theorem loads_jsonArray (hlimit : 1 ≤ limit) (items : List (List Char)) :
    JsonText.loads limit (String.ofList (jsonArray items)) =
      .ok (.arr (items.map fun s => .str (String.ofList s))) := by
  have hopen (rest : List Char) : Machine.step limit ⟨[], .value, '[' :: rest⟩ =
      .ok (.inl ⟨[], .first, rest⟩) := by
    have hdeep : ¬ limit ≤ 0 := by omega
    simp [Machine.step, skip_cons (by decide : JsonText.isSpace '[' = false), valueStep, hdeep,
      Except.map]
  rw [JsonText.loads, jsonArray, if_neg (head_mark (by decide) _), String.toList_ofList,
    Machine.run_step (hopen _)]
  cases items with
  | nil =>
    have hclose : Machine.step limit ⟨[], .first, [']']⟩ = .ok (.inl ⟨[], .done (.arr []), []⟩) :=
      rfl
    show Machine.run limit ⟨[], .first, [']']⟩ = _
    rw [Machine.run_step hclose]
    exact Machine.run_done rfl
  | cons s items =>
    have hquote : jsonString s ++ itemsBehind items =
        '"' :: (s.flatMap writeChar ++ '"' :: itemsBehind items) := jsonString_append s _
    have hvalue := valueStep_jsonString limit [.arr []] s (itemsBehind items)
    have hskip := json_skip_jsonString s (itemsBehind items)
    rw [hquote] at hvalue hskip
    have hfirst : Machine.step limit
        ⟨[], .first, '"' :: (s.flatMap writeChar ++ '"' :: itemsBehind items)⟩ =
          .ok (.inl ⟨[.arr []], .done (.str (String.ofList s)), itemsBehind items⟩) := by
      simp only [Machine.step, hskip]
      exact congrArg (Except.map Sum.inl) hvalue
    rw [jsonItems_behind, hquote, Machine.run_step hfirst, run_itemsBehind]
    rfl

/-- The front of an array is none where more than blanks are missing. -/
theorem loads_array_cut (hlimit : 1 ≤ limit) {items : List (List Char)} {text more : List Char}
    (htext : text.head? = some '[') (hmore : JsonText.skip more ≠ [])
    (hwhole : text ++ more = jsonArray items) :
    ∃ e, JsonText.loads limit (String.ofList text) = .error e := by
  cases hread : JsonText.loads limit (String.ofList text) with
  | error e => exact ⟨e, rfl⟩
  | ok v =>
    have hopens : Opens (String.ofList text).toList := by
      obtain ⟨rest, rfl⟩ := List.head?_eq_some_iff.mp htext
      rw [String.toList_ofList, Opens, skip_cons (by decide)]
      exact .inl rfl
    have happend := JsonText.loads_append hread hopens (String.ofList more)
    rw [← String.ofList_append, hwhole, loads_jsonArray hlimit, String.toList_ofList,
      if_neg hmore] at happend
    cases happend

end TomlText

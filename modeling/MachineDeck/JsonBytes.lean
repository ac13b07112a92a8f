import MachineDeck.JsonText
import Mathlib.Data.List.Basic
import Mathlib.Data.String.Basic

/-!
# JSON bytes

JSON that is given as bytes, as Python's `json.loads` takes them.

* `detectEncoding` — UTF-8, UTF-16 or UTF-32, told by the first bytes;
* `decodeBytes` — the text of the bytes, a lone surrogate again read as U+FFFD;
* `length_decodeBytes` — there are no more characters than bytes;
* `decodeBytes_ascii` — ASCII that begins as JSON does is read as it stands;
* `run_not_recursion` — a text that is shorter than the limit does not reach it.
-/

namespace JsonText

/-! ### Encodings -/

inductive Encoding where
  | utf8
  | utf16 (bigEndian : Bool)
  | utf32 (bigEndian : Bool)
  deriving DecidableEq, Repr

/-- Where no mark stands in front, the zeros among the first bytes tell the width. -/
def guessEncoding : List UInt8 → Encoding
  | a :: b :: c :: d :: _ =>
    if a = 0 then if b = 0 then .utf32 true else .utf16 true
    else if b = 0 then if c = 0 ∧ d = 0 then .utf32 false else .utf16 false
    else .utf8
  | [a, b] => if a = 0 then .utf16 true else if b = 0 then .utf16 false else .utf8
  | _ => .utf8

/-- The byte order marks, in the order they are looked for. -/
def marks : List (List UInt8 × Encoding) :=
  [([0x00, 0x00, 0xFE, 0xFF], .utf32 true), ([0xFF, 0xFE, 0x00, 0x00], .utf32 false),
    ([0xFE, 0xFF], .utf16 true), ([0xFF, 0xFE], .utf16 false), ([0xEF, 0xBB, 0xBF], .utf8)]

/-- The encoding, and the bytes behind the mark. -/
def detectEncoding (bytes : List UInt8) : Encoding × List UInt8 :=
  match marks.find? fun mark => mark.1.isPrefixOf bytes with
  | some (mark, encoding) => (encoding, bytes.drop mark.length)
  | none => (guessEncoding bytes, bytes)

/-- The bytes of a surrogate give way to those of U+FFFD.  A character of UTF-8 begins wherever the
byte 0xED stands. -/
def passSurrogates : List UInt8 → List UInt8
  | a :: b :: c :: rest =>
    if a = 0xED ∧ 0xA0 ≤ b ∧ b ≤ 0xBF ∧ 0x80 ≤ c ∧ c ≤ 0xBF then
      0xEF :: 0xBF :: 0xBD :: passSurrogates rest
    else a :: passSurrogates (b :: c :: rest)
  | bytes => bytes

def decodeUtf8 (bytes : List UInt8) : Option (List Char) :=
  (String.fromUTF8? ⟨(passSurrogates bytes).toArray⟩).map String.toList

def loneUnit (n : ℕ) : Char := if 55296 ≤ n ∧ n < 57344 then '\uFFFD' else Char.ofNat n

def units (bigEndian : Bool) : List UInt8 → Option (List ℕ)
  | [] => some []
  | a :: b :: rest => do
    let rest ← units bigEndian rest
    return (if bigEndian then a.toNat * 256 + b.toNat else b.toNat * 256 + a.toNat) :: rest
  | [_] => none

/-- Two surrogates in the right order are one character. -/
def joinUnits : List ℕ → List Char
  | high :: low :: rest =>
    if 55296 ≤ high ∧ high < 56320 ∧ 56320 ≤ low ∧ low < 57344 then
      Char.ofNat (65536 + (high - 55296) * 1024 + (low - 56320)) :: joinUnits rest
    else loneUnit high :: joinUnits (low :: rest)
  | [n] => [loneUnit n]
  | [] => []

def words (bigEndian : Bool) : List UInt8 → Option (List ℕ)
  | [] => some []
  | a :: b :: c :: d :: rest => do
    let rest ← words bigEndian rest
    return (if bigEndian then ((a.toNat * 256 + b.toNat) * 256 + c.toNat) * 256 + d.toNat
      else ((d.toNat * 256 + c.toNat) * 256 + b.toNat) * 256 + a.toNat) :: rest
  | _ => none

/-- No character lies beyond U+10FFFF. -/
def decodeUtf32 (bigEndian : Bool) (bytes : List UInt8) : Option (List Char) := do
  let read ← words bigEndian bytes
  if read.all (· < 1114112) then return read.map loneUnit else none

def decodeBytes (bytes : List UInt8) : Option (List Char) :=
  match detectEncoding bytes with
  | (.utf8, rest) => decodeUtf8 rest
  | (.utf16 bigEndian, rest) => (units bigEndian rest).map joinUnits
  | (.utf32 bigEndian, rest) => decodeUtf32 bigEndian rest

/-! ### Characters and bytes -/

theorem length_passSurrogates (bytes : List UInt8) :
    (passSurrogates bytes).length = bytes.length := by
  induction bytes using passSurrogates.induct with
  | case1 a b c rest hpass ih => rw [passSurrogates, if_pos hpass]; simp [ih]
  | case2 a b c rest hpass ih => rw [passSurrogates, if_neg hpass]; simp [ih]
  | case3 bytes hshort => rw [passSurrogates]; exact hshort

theorem length_toList_le (s : String) : s.toList.length ≤ s.toByteArray.size := by
  rw [← String.utf8Encode_toList, List.utf8Encode, List.size_toByteArray, List.length_flatMap]
  have hchar (c : Char) : 1 ≤ (String.utf8EncodeChar c).length := by
    rw [String.length_utf8EncodeChar]
    exact Char.utf8Size_pos c
  induction s.toList with
  | nil => exact Nat.le_refl 0
  | cons c text ih =>
      rw [List.length_cons, List.map_cons, List.sum_cons]
      exact (Nat.add_comm _ _).trans_le (Nat.add_le_add (hchar c) ih)

theorem length_decodeUtf8 {bytes : List UInt8} {text : List Char}
    (h : decodeUtf8 bytes = some text) : text.length ≤ bytes.length := by
  obtain ⟨s, hs, rfl⟩ := Option.map_eq_some_iff.mp h
  have hbytes : s.toByteArray = ⟨(passSurrogates bytes).toArray⟩ := by
    unfold String.fromUTF8? at hs
    split_ifs at hs
    rw [← Option.some.inj hs]
    rfl
  have hlength := length_toList_le s
  rw [hbytes] at hlength
  simpa [ByteArray.size, length_passSurrogates] using hlength

theorem length_units {bigEndian : Bool} {bytes : List UInt8} {read : List ℕ}
    (h : units bigEndian bytes = some read) : read.length ≤ bytes.length := by
  induction bytes using units.induct generalizing read with
  | case1 => cases h; exact Nat.le_refl 0
  | case2 a b rest ih =>
      obtain ⟨tail, htail, h⟩ := Option.bind_eq_some_iff.mp h
      cases h
      have hle := ih htail
      simp only [List.length_cons]
      omega
  | case3 => cases h

theorem length_joinUnits (read : List ℕ) : (joinUnits read).length ≤ read.length := by
  induction read using joinUnits.induct with
  | case1 high low rest hpair ih =>
      rw [joinUnits, if_pos hpair]
      simp only [List.length_cons]
      omega
  | case2 high low rest hpair ih =>
      rw [joinUnits, if_neg hpair]
      simp only [List.length_cons] at ih ⊢
      omega
  | case3 n => exact Nat.le_refl 1
  | case4 => exact Nat.le_refl 0

theorem length_words {bigEndian : Bool} {bytes : List UInt8} {read : List ℕ}
    (h : words bigEndian bytes = some read) : read.length ≤ bytes.length := by
  induction bytes using words.induct generalizing read with
  | case1 => cases h; exact Nat.le_refl 0
  | case2 a b c d rest ih =>
      obtain ⟨tail, htail, h⟩ := Option.bind_eq_some_iff.mp h
      cases h
      have hle := ih htail
      simp only [List.length_cons]
      omega
  | case3 bytes hnil hfour => rw [words] at h <;> first | cases h | assumption

theorem length_decodeUtf32 {bigEndian : Bool} {bytes : List UInt8} {text : List Char}
    (h : decodeUtf32 bigEndian bytes = some text) : text.length ≤ bytes.length := by
  obtain ⟨read, hread, h⟩ := Option.bind_eq_some_iff.mp h
  split_ifs at h
  cases h
  rw [List.length_map]
  exact length_words hread

theorem length_detectEncoding (bytes : List UInt8) :
    (detectEncoding bytes).2.length ≤ bytes.length := by
  unfold detectEncoding
  split
  · exact (List.drop_sublist _ _).length_le
  · exact Nat.le_refl _

/-- Every character takes a byte at least. -/
theorem length_decodeBytes {bytes : List UInt8} {text : List Char}
    (h : decodeBytes bytes = some text) : text.length ≤ bytes.length := by
  have hdetect := length_detectEncoding bytes
  unfold decodeBytes at h
  split at h
  · rename_i rest hrest
    rw [hrest] at hdetect
    exact (length_decodeUtf8 h).trans hdetect
  · rename_i rest hrest
    rw [hrest] at hdetect
    obtain ⟨read, hread, rfl⟩ := Option.map_eq_some_iff.mp h
    exact ((length_joinUnits read).trans (length_units hread)).trans hdetect
  · rename_i rest hrest
    rw [hrest] at hdetect
    exact (length_decodeUtf32 h).trans hdetect

/-! ### ASCII -/

theorem passSurrogates_eq_self {bytes : List UInt8} (h : 0xED ∉ bytes) :
    passSurrogates bytes = bytes := by
  induction bytes using passSurrogates.induct with
  | case1 a b c rest hpass ih => exact absurd (hpass.1 ▸ List.mem_cons_self) h
  | case2 a b c rest hpass ih =>
      rw [passSurrogates, if_neg hpass, ih fun hmem => h (List.mem_cons_of_mem _ hmem)]
  | case3 bytes hshort => rw [passSurrogates]; exact hshort

/-- The bytes of a text of ASCII. -/
theorem utf8_ascii {text : List Char} (h : ∀ c ∈ text, c.toNat < 128) :
    (String.ofList text).toUTF8.data.toList = text.map fun c => UInt8.ofNat c.toNat := by
  have hchar (c : Char) (hc : c.toNat < 128) :
      String.utf8EncodeChar c = [UInt8.ofNat c.toNat] := by
    have hsize : c.utf8Size = 1 := by
      rw [Char.utf8Size_eq_one_iff]
      exact UInt32.le_iff_toNat_le.mpr (Nat.le_of_lt_succ hc)
    rw [String.utf8EncodeChar_eq_singleton hsize]
    rfl
  have hbytes : (String.ofList text).toUTF8 = text.utf8Encode := String.toByteArray_ofList
  rw [hbytes, List.utf8Encode, List.data_toByteArray]
  clear hbytes
  show text.flatMap String.utf8EncodeChar = _
  induction text with
  | nil => rfl
  | cons c text ih =>
      rw [List.flatMap_cons, hchar c (h c List.mem_cons_self), List.map_cons,
        ih fun d hd => h d (List.mem_cons_of_mem _ hd)]
      rfl

theorem fromUTF8?_toUTF8 (s : String) : String.fromUTF8? ⟨s.toUTF8.data.toList.toArray⟩ = some s := by
  have hbytes : (⟨s.toUTF8.data.toList.toArray⟩ : ByteArray) = s.toByteArray := by
    rw [Array.toArray_toList]
    rfl
  rw [hbytes, String.fromUTF8?, dif_pos s.isValidUTF8]
  rfl

/-- Two characters of ASCII in front, neither of them zero, are UTF-8 without a mark. -/
theorem detectEncoding_ascii {a b : UInt8} (ha : a.toNat < 128) (ha₀ : a ≠ 0) (hb₀ : b ≠ 0)
    (rest : List UInt8) : detectEncoding (a :: b :: rest) = (.utf8, a :: b :: rest) := by
  have hmark {n : UInt8} (hn : 128 ≤ n.toNat) : (n == a) = false := by
    rw [beq_eq_false_iff_ne]
    intro heq
    rw [heq] at hn
    omega
  have hzero : ((0x00 : UInt8) == a) = false := by
    rw [beq_eq_false_iff_ne]
    exact ha₀.symm
  have hnone : marks.find? (fun mark => mark.1.isPrefixOf (a :: b :: rest)) = none := by
    simp [marks, List.isPrefixOf, hzero, hmark (by decide : 128 ≤ (0xFF : UInt8).toNat),
      hmark (by decide : 128 ≤ (0xFE : UInt8).toNat),
      hmark (by decide : 128 ≤ (0xEF : UInt8).toNat)]
  have hguess : guessEncoding (a :: b :: rest) = .utf8 := by
    unfold guessEncoding
    split <;> simp_all
  rw [detectEncoding, hnone]
  simp only [hguess]

/-- ASCII that begins as JSON does is read as it stands. -/
theorem decodeBytes_ascii {c d : Char} {text : List Char} (h : ∀ e ∈ c :: d :: text, e.toNat < 128)
    (hc : c.toNat ≠ 0) (hd : d.toNat ≠ 0) :
    decodeBytes (String.ofList (c :: d :: text)).toUTF8.data.toList = some (c :: d :: text) := by
  have htoNat {e : Char} (he : e.toNat < 128) : (UInt8.ofNat e.toNat).toNat = e.toNat := by
    rw [UInt8.toNat_ofNat']
    omega
  have hne {e : Char} (he : e.toNat < 128) (he₀ : e.toNat ≠ 0) : UInt8.ofNat e.toNat ≠ 0 := by
    intro heq
    have hvalue := htoNat he
    rw [heq] at hvalue
    exact he₀ hvalue.symm
  have hca := h c List.mem_cons_self
  have hda := h d (List.mem_cons_of_mem _ List.mem_cons_self)
  have hpass : 0xED ∉ (c :: d :: text).map fun e => UInt8.ofNat e.toNat := by
    intro hmem
    obtain ⟨e, he, heq⟩ := List.mem_map.mp hmem
    have hvalue := htoNat (h e he)
    rw [heq] at hvalue
    have hlt := h e he
    rw [← hvalue] at hlt
    exact absurd hlt (by decide)
  have hread := fromUTF8?_toUTF8 (String.ofList (c :: d :: text))
  have hdetect := detectEncoding_ascii ((htoNat hca).symm ▸ hca) (hne hca hc) (hne hda hd)
    (text.map fun e => UInt8.ofNat e.toNat)
  rw [utf8_ascii h] at hread ⊢
  rw [decodeBytes, List.map_cons, List.map_cons, hdetect]
  show decodeUtf8 ((c :: d :: text).map fun e => UInt8.ofNat e.toNat) = _
  rw [decodeUtf8, passSurrogates_eq_self hpass, hread, Option.map_some, String.toList_ofList]

theorem hexDigit_ascii : ∀ n < 16, (HexDigits.hexDigit n).toNat < 128 := by decide

theorem unitEscape_ascii {n : ℕ} {c : Char} (h : c ∈ unitEscape n) : c.toNat < 128 := by
  have hdigit (m : ℕ) : (HexDigits.hexDigit (m % 16)).toNat < 128 :=
    hexDigit_ascii _ (Nat.mod_lt _ (by decide))
  simp only [unitEscape, hexUnit, List.mem_cons, List.not_mem_nil, or_false] at h
  rcases h with rfl | rfl | rfl | rfl | rfl | rfl
  · decide
  · decide
  all_goals exact hdigit _

theorem writeChar_ascii {c d : Char} (h : d ∈ writeChar c) : d.toNat < 128 := by
  unfold writeChar at h
  split at h
  · rename_i e he
    unfold shortEscape at he
    split at he <;> cases he <;>
      · simp only [List.mem_cons, List.not_mem_nil, or_false] at h
        rcases h with rfl | rfl <;> decide
  · split_ifs at h with hprintable hbasic
    · rw [List.mem_singleton.mp h]
      omega
    · exact unitEscape_ascii h
    · rcases List.mem_append.mp h with h | h
      · exact unitEscape_ascii h
      · exact unitEscape_ascii h

theorem quoted_ascii {s : String} {c : Char} (h : c ∈ quoted s) : c.toNat < 128 := by
  rw [quoted_eq, PrefixCode.encodeAll] at h
  rcases List.mem_cons.mp h with rfl | h
  · decide
  · rcases List.mem_append.mp h with h | h
    · obtain ⟨d, -, hd⟩ := List.mem_flatMap.mp h
      exact writeChar_ascii hd
    · rw [List.mem_singleton.mp h]
      decide

theorem writeMember_ascii {m : String × String} {c : Char} (h : c ∈ writeMember m) :
    c.toNat < 128 := by
  rw [writeMember] at h
  rcases List.mem_append.mp h with h | h
  · exact quoted_ascii h
  · rcases List.mem_cons.mp h with rfl | h
    · decide
    · exact quoted_ascii h

/-- The bytes of an object of strings are read as the object's text. -/
theorem decodeBytes_dumpsStrings (m : String × String) (more : List (String × String)) :
    decodeBytes (dumpsStrings (m :: more)).toUTF8.data.toList =
      some (dumpsStrings (m :: more)).toList := by
  obtain ⟨tail, htail⟩ := quoted_append m.1 (':' :: quoted m.2 ++
    ((more.flatMap fun m => ',' :: writeMember m) ++ ['\x7d']))
  have htext : (dumpsStrings (m :: more)).toList = '\x7b' :: '"' :: tail := by
    rw [toList_dumpsStrings, writeMember, List.append_assoc, htail]
  have hascii : ∀ c ∈ '\x7b' :: '"' :: tail, c.toNat < 128 := by
    intro c hc
    rw [← htext, toList_dumpsStrings] at hc
    rcases List.mem_cons.mp hc with rfl | hc
    · decide
    rcases List.mem_append.mp hc with hc | hc
    · exact writeMember_ascii hc
    rcases List.mem_append.mp hc with hc | hc
    · obtain ⟨member, -, hc⟩ := List.mem_flatMap.mp hc
      rcases List.mem_cons.mp hc with rfl | hc
      · decide
      · exact writeMember_ascii hc
    · rw [List.mem_singleton.mp hc]
      decide
  have hread := decodeBytes_ascii hascii (by decide) (by decide)
  rwa [← htext, String.ofList_toList] at hread

/-! ### Depth -/

theorem valueStep_stack {limit : ℕ} {stack : List Frame} {text : List Char} {m : Machine}
    (h : valueStep limit stack text = .ok m) : m.stack = stack := by
  unfold valueStep at h
  split at h
  · split_ifs at h
    cases h
    rfl
  · split_ifs at h
    cases h
    rfl
  · split at h <;> cases h
    rfl

theorem nameStep_stack {stack : List Frame} {members : List (String × Json)} {text : List Char}
    {m : Machine} (h : nameStep stack members text = .ok m) :
    m.stack.length = stack.length + 1 := by
  unfold nameStep at h
  split at h
  · split at h <;> cases h
    rfl
  · cases h

theorem closeStep_stack {frame : Frame} {stack : List Frame} {value : Json} {text : List Char}
    {m : Machine} (h : closeStep frame stack value text = .ok m) :
    m.stack.length ≤ stack.length + 1 := by
  unfold closeStep at h
  split at h <;> cases h <;> simp

/-- What lies open and what is still to be read, taken together, never grow. -/
theorem Machine.step_depth {limit : ℕ} {m m' : Machine} (h : m.step limit = .ok (.inl m')) :
    m'.stack.length + m'.text.length ≤ m.stack.length + m.text.length := by
  have hskip := skip_length m.text
  have hlength := Machine.step_length h
  unfold Machine.step at h
  split at h
  · rw [valueStep_stack (ok_of_map h)]
    omega
  · cases h
    simp only at hlength ⊢
    omega
  · rw [valueStep_stack (ok_of_map h), List.length_cons]
    omega
  · cases h
    simp only at hlength ⊢
    omega
  · have hstack := nameStep_stack (ok_of_map h)
    omega
  · split at h
    · cases h
    · cases h
    · rename_i hframes
      have hstack := closeStep_stack (ok_of_map h)
      rw [hframes, List.length_cons]
      omega

theorem valueStep_recursion {limit : ℕ} {stack : List Frame} {text : List Char}
    (h : valueStep limit stack text = .error .recursion) :
    limit ≤ stack.length ∧ 1 ≤ text.length := by
  unfold valueStep at h
  split at h
  · split_ifs at h with hdeep
    exact ⟨hdeep, by simp⟩
  · split_ifs at h with hdeep
    exact ⟨hdeep, by simp⟩
  · split at h
    · cases h
    · split_ifs at h <;> cases h

theorem Machine.step_recursion {limit : ℕ} {m : Machine}
    (h : m.step limit = .error .recursion) : limit ≤ m.stack.length + m.text.length := by
  have hmap {x : Except LoadsError Machine}
      (h : x.map (Sum.inl (β := Json)) = .error .recursion) : x = .error .recursion := by
    cases x with
    | error e => cases h; rfl
    | ok m => cases h
  have hskip := skip_length m.text
  unfold Machine.step at h
  split at h
  · have hdeep := valueStep_recursion (hmap h)
    omega
  · cases h
  · have hdeep := valueStep_recursion (hmap h)
    rw [List.length_cons] at hdeep
    omega
  · cases h
  · have hname := hmap h
    unfold nameStep at hname
    split at hname
    · split at hname <;> cases hname
    · cases hname
  · split at h
    · cases h
    · cases h
    · have hclose := hmap h
      unfold closeStep at hclose
      split at hclose <;> cases hclose

/-- A text that is shorter than the limit does not reach it. -/
theorem Machine.run_not_recursion {limit : ℕ} {m : Machine}
    (h : m.stack.length + m.text.length < limit) : m.run limit ≠ .error .recursion := by
  induction m using Machine.run.induct limit with
  | case1 m e hstep =>
      rw [Machine.run_error hstep]
      intro heq
      cases heq
      have hdeep := Machine.step_recursion hstep
      omega
  | case2 m value hstep =>
      rw [Machine.run_done hstep]
      intro heq
      cases heq
  | case3 m m' hstep ih =>
      rw [Machine.run_step hstep]
      have hdepth := Machine.step_depth hstep
      exact ih (by omega)

theorem loads_not_recursion {limit : ℕ} {text : String} (h : text.length < limit) :
    loads limit text ≠ .error .recursion := by
  unfold loads
  split_ifs
  · intro heq
    cases heq
  · refine Machine.run_not_recursion ?_
    rw [List.length_nil, Nat.zero_add, String.length_toList]
    exact h

end JsonText

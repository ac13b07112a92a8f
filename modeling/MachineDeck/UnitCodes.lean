import MachineDeck.PrefixCode
import MachineDeck.Traversals
import MachineDeck.UnitRender

/-!
# The codes of unit values

The two ways in which a value is written into a line of a unit, as prefix codes.

* `wordCode`, `quotedWord` — the characters of a quoted word, and a word between its quotes;
* `pathCode` — the bytes of an unquoted path;
* `quote_ok`, `escapePath_ok` — what `quote` and `escapePath` return is written in these codes;
* `mem_quotedWord`, `plain_escapedByte` — the characters that the codes add are plain: they end no
  line.
-/

namespace MachineDeck.Systemd

open LineText Traversals

/-- A character that ends no line and no text. -/
def plainChar (c : Char) : Bool := !lineBoundary c && c != '\x00'

/-! ### Raising checks -/

theorem require_ok {condition : Bool} {message : String} {u : Unit}
    (h : require condition message = .ok u) : condition = true := by
  cases condition with
  | true => rfl
  | false => cases h

/-! ### Quoted words -/

/-- The character before one that is not written as it is. -/
def lead (escapeDollar : Bool) (c : Char) : Option Char :=
  if c = '\\' ∨ c = '"' then some '\\'
  else if c = '%' then some '%'
  else if escapeDollar = true ∧ c = '$' then some '$'
  else none

theorem lead_cases {escapeDollar : Bool} {c l : Char} (h : lead escapeDollar c = some l) :
    l = '\\' ∨ l = '%' ∨ escapeDollar = true ∧ l = '$' := by
  unfold lead at h
  split at h
  · cases h
    exact .inl rfl
  · split at h
    · cases h
      exact .inr (.inl rfl)
    · split at h
      · rename_i hdollar
        cases h
        exact .inr (.inr ⟨hdollar.1, rfl⟩)
      · cases h

theorem lead_isSome {escapeDollar : Bool} {c l : Char} (h : lead escapeDollar c = some l) :
    (lead escapeDollar l).isSome = true := by
  rcases lead_cases h with rfl | rfl | ⟨rfl, rfl⟩ <;> simp [lead]

/-- The characters of a quoted word; `$$` stands for a dollar in a command only. -/
def wordCode (escapeDollar : Bool) : PrefixCode Char Char :=
  .escaping (lead escapeDollar) fun _ _ => lead_isSome

theorem wordCode_encode (escapeDollar : Bool) (c : Char) :
    (wordCode escapeDollar).encode c = (lead escapeDollar c).toList ++ [c] := rfl

theorem wordCode_head (escapeDollar : Bool) (c : Char) :
    ((wordCode escapeDollar).encode c).head? ≠ some '"' := by
  rw [wordCode_encode]
  cases hlead : lead escapeDollar c with
  | none =>
      intro h
      have hc : c = '"' := by simpa using h
      rw [hc] at hlead
      simp [lead] at hlead
  | some l =>
      intro h
      have hl : l = '"' := by simpa using h
      rcases lead_cases hlead with rfl | rfl | ⟨-, rfl⟩ <;> revert hl <;> decide

/-- A word between double quotes. -/
def quotedWord (escapeDollar : Bool) : PrefixCode (List Char) Char :=
  .delimited '"' '"' (wordCode escapeDollar) (wordCode_head escapeDollar)

/-- The replacements in a row write each character by the code. -/
theorem toList_escaped (escapeDollar : Bool) (value : String) :
    (escaped escapeDollar value).toList = (wordCode escapeDollar).encodeAll value.toList := by
  cases escapeDollar with
  | false =>
      simp only [escaped, Bool.false_eq_true, if_false, toList_replaceChar, List.flatMap_assoc]
      apply List.flatMap_congr
      intro c _
      by_cases hc : c ∈ ['\\', '"', '%', '$']
      · simp only [List.mem_cons, List.not_mem_nil, or_false] at hc
        rcases hc with rfl | rfl | rfl | rfl <;> decide
      · simp only [List.mem_cons, List.not_mem_nil, or_false, not_or] at hc
        simp [wordCode_encode, lead, hc]
  | true =>
      simp only [escaped, if_true, toList_replaceChar, List.flatMap_assoc]
      apply List.flatMap_congr
      intro c _
      by_cases hc : c ∈ ['\\', '"', '%', '$']
      · simp only [List.mem_cons, List.not_mem_nil, or_false] at hc
        rcases hc with rfl | rfl | rfl | rfl <;> decide
      · simp only [List.mem_cons, List.not_mem_nil, or_false, not_or] at hc
        simp [wordCode_encode, lead, hc]

/-- A word has its own characters and those of the code. -/
theorem mem_quotedWord {escapeDollar : Bool} {symbols : List Char} {c : Char}
    (h : c ∈ (quotedWord escapeDollar).encode symbols) :
    c ∈ symbols ∨ c ∈ ['"', '\\', '%', '$'] := by
  have hword : (quotedWord escapeDollar).encode symbols =
      '"' :: ((wordCode escapeDollar).encodeAll symbols ++ ['"']) := rfl
  rw [hword] at h
  rcases List.mem_cons.mp h with rfl | h
  · exact .inr (by decide)
  · rcases List.mem_append.mp h with h | h
    · obtain ⟨symbol, hsymbol, h⟩ := List.mem_flatMap.mp h
      rw [wordCode_encode] at h
      rcases List.mem_append.mp h with hlead | hsame
      · rcases lead_cases (Option.mem_toList.mp hlead) with rfl | rfl | ⟨-, rfl⟩
        · exact .inr (by decide)
        · exact .inr (by decide)
        · exact .inr (by decide)
      · rw [List.mem_singleton.mp hsame]
        exact .inl hsymbol
    · rw [List.mem_singleton.mp h]
      exact .inr (by decide)

theorem quote_ok {escapeDollar : Bool} {value word : String}
    (h : quote escapeDollar value = .ok word) :
    value.toList.all environmentChar = true ∧
      word.toList = (quotedWord escapeDollar).encode value.toList := by
  obtain ⟨_, hcheck, h⟩ := bind_ok h
  cases h
  refine ⟨require_ok hcheck, ?_⟩
  simp [toList_escaped, quotedWord, PrefixCode.delimited]

/-! ### Paths -/

def hexValue (c : Char) : Option ℕ :=
  if '0' ≤ c ∧ c ≤ '9' then some (c.toNat - 48)
  else if 'a' ≤ c ∧ c ≤ 'f' then some (c.toNat - 87)
  else none

theorem hexValue_hexDigit : ∀ n < 16, hexValue (hexDigit n) = some n := by decide

set_option maxRecDepth 4000 in
theorem safeByte_char : ∀ n < 256, safeByte (UInt8.ofNat n) = true →
    Char.ofNat n ≠ '%' ∧ Char.ofNat n ≠ '\\' ∧ (Char.ofNat n).toNat = n := by decide

/-- One byte of an unquoted path. -/
def readByte : List Char → Option (UInt8 × List Char)
  | '%' :: '%' :: rest => some (37, rest)
  | '\\' :: 'x' :: high :: low :: rest => do
    let high ← hexValue high
    let low ← hexValue low
    return (UInt8.ofNat (16 * high + low), rest)
  | c :: rest => if c = '%' ∨ c = '\\' then none else some (UInt8.ofNat c.toNat, rest)
  | [] => none

theorem readByte_escapedByte (byte : UInt8) (rest : List Char) :
    readByte (escapedByte byte ++ rest) = some (byte, rest) := by
  have hbyte : byte.toNat < 256 := byte.toNat_lt
  rw [escapedByte]
  split
  · rename_i hsafe
    have hchar := safeByte_char byte.toNat hbyte
    rw [UInt8.ofNat_toNat] at hchar
    obtain ⟨hpercent, hbackslash, hvalue⟩ := hchar hsafe
    rw [List.singleton_append, readByte]
    · rw [if_neg (not_or.mpr ⟨hpercent, hbackslash⟩), hvalue, UInt8.ofNat_toNat]
    · intro rest' h _
      exact hpercent h
    · intro high low rest' h _
      exact hbackslash h
  · split
    · rename_i hpercent
      rw [eq_of_beq hpercent]
      rfl
    · have hhigh : byte.toNat / 16 < 16 := by omega
      have hlow : byte.toNat % 16 < 16 := by omega
      have hvalue : 16 * (byte.toNat / 16) + byte.toNat % 16 = byte.toNat := by omega
      simp only [List.cons_append, List.nil_append, readByte, hexValue_hexDigit _ hhigh,
        hexValue_hexDigit _ hlow, Option.bind_eq_bind, Option.bind_some, hvalue,
        UInt8.ofNat_toNat]
      rfl

/-- The bytes of an unquoted path. -/
def pathCode : PrefixCode UInt8 Char where
  encode := escapedByte
  read := readByte
  encode_ne_nil byte := by
    rw [escapedByte]
    split
    · simp
    · split <;> simp
  read_encode := readByte_escapedByte

set_option maxRecDepth 8000 in
/-- A path is written in characters that end no line. -/
theorem plain_escapedByte : ∀ n < 256, ∀ c ∈ escapedByte (UInt8.ofNat n),
    plainChar c = true := by decide

theorem escapePath_ok {path value : String} (h : escapePath path = .ok value) :
    value.toList = pathCode.encodeAll path.toUTF8.data.toList := by
  obtain ⟨_, -, h⟩ := bind_ok h
  cases h
  exact String.toList_ofList

theorem plain_path (path : String) :
    ∀ c ∈ pathCode.encodeAll path.toUTF8.data.toList, plainChar c = true := by
  intro c hc
  obtain ⟨byte, -, hc⟩ := List.mem_flatMap.mp hc
  have hbyte := plain_escapedByte byte.toNat byte.toNat_lt
  rw [UInt8.ofNat_toNat] at hbyte
  exact hbyte c hc

/-! ### Lines -/

theorem sortedItems_perm (environment : Environment) :
    (sortedItems environment).Perm environment.entries :=
  List.perm_insertionSort _ _

theorem plain_unitLines : ∀ line ∈ unitLines "" "" "" [""], ∀ c ∈ line.toList,
    plainChar c = true := by decide

/-- The characters of a line are plain, apart from those of the values. -/
theorem char_unitLines {unitName workingDirectory execStart : String} {values : List String}
    {line : String} (hline : line ∈ unitLines unitName workingDirectory execStart values) {c : Char}
    (hc : c ∈ line.toList) :
    plainChar c = true ∨ c ∈ unitName.toList ∨ c ∈ workingDirectory.toList ∨
      c ∈ execStart.toList ∨ ∃ value ∈ values, c ∈ value.toList := by
  have hvalue : ∀ text ∈ unitLines "" "" "" [""], ∀ value : String, c ∈ (text ++ value).toList →
      plainChar c = true ∨ c ∈ value.toList := by
    intro text htext value hc
    rw [String.toList_append] at hc
    rcases List.mem_append.mp hc with hc | hc
    · exact .inl (plain_unitLines text htext c hc)
    · exact .inr hc
  rcases List.mem_append.mp hline with hline | hline
  · rcases List.mem_append.mp hline with hline | hline
    · simp only [List.mem_cons, List.not_mem_nil, or_false] at hline
      rcases hline with rfl | rfl | rfl | rfl | rfl | rfl | rfl | rfl | rfl | rfl
      case inr.inr.inl =>
        rcases hvalue "Description=MachineDeck managed application " (by decide) _ hc with h | h
        · exact .inl h
        · exact .inr (.inl h)
      case inr.inr.inr.inr.inr.inr.inr.inr.inl =>
        rcases hvalue "WorkingDirectory=" (by decide) _ hc with h | h
        · exact .inl h
        · exact .inr (.inr (.inl h))
      case inr.inr.inr.inr.inr.inr.inr.inr.inr =>
        rcases hvalue "ExecStart=" (by decide) _ hc with h | h
        · exact .inl h
        · exact .inr (.inr (.inr (.inl h)))
      all_goals exact .inl (plain_unitLines _ (by decide) c hc)
    · obtain ⟨value, hmem, rfl⟩ := List.mem_map.mp hline
      rcases hvalue "Environment=" (by decide) value hc with h | h
      · exact .inl h
      · exact .inr (.inr (.inr (.inr ⟨value, hmem, h⟩)))
  · have hlast : ∀ last ∈ ["KillMode=control-group", "TimeoutStartSec=120", "TimeoutStopSec=30",
        "Restart=no", "NoNewPrivileges=true", "", "[Install]", "WantedBy=default.target", ""],
        last ∈ unitLines "" "" "" [""] := by decide
    exact .inl (plain_unitLines line (hlast line hline) c hc)

end MachineDeck.Systemd

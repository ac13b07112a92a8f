import MachineDeck.UrlQuery
import MachineDeck.Utf8Cut

/-!
# Queries written and read back

* `quotedChar` — the characters that `quote_plus` writes;
* `unquotePlus_quotePlus`, `parseQsl_urlencode` — what has been written is read back.
-/

namespace UrlQuery

open HexDigits UrlSplit Utf8Text

/-- A character that stands for itself, or one of the two signs of an encoding. -/
def quotedChar (c : Char) : Bool := unreserved c || c == '+' || c == '%'

/-! ### Characters -/

theorem hexUpper_value : ∀ n < 16, hexValue (hexUpper n) = some n ∧ unreserved (hexUpper n) = true := by
  decide

theorem isAlphanum_ascii {c : Char} (h : c.isAlphanum = true) : c.toNat < 0x80 := by
  delta Char.isAlphanum Char.isAlpha Char.isUpper Char.isLower Char.isDigit at h
  simp only [Bool.or_eq_true, Bool.and_eq_true, decide_eq_true_eq] at h
  have hval {n : UInt32} (hle : c.val ≤ n) : c.toNat ≤ n.toNat := hle
  rcases h with (h | h) | h
  · exact Nat.lt_of_le_of_lt (hval h.2) (by decide)
  · exact Nat.lt_of_le_of_lt (hval h.2) (by decide)
  · exact Nat.lt_of_le_of_lt (hval h.2) (by decide)

theorem unreserved_ascii {c : Char} (h : unreserved c = true) : c.toNat < 0x80 := by
  rw [unreserved, Bool.or_eq_true] at h
  rcases h with h | h
  · exact isAlphanum_ascii h
  · have hsigns : ∀ c ∈ "_.-~".toList, c.toNat < 0x80 := List.all_iff_forall_prop.mp (by decide)
    exact hsigns c (List.contains_iff_mem.mp h)

theorem quotedChar_ascii {c : Char} (h : quotedChar c = true) : c.toNat < 0x80 := by
  rw [quotedChar, Bool.or_eq_true, Bool.or_eq_true, beq_iff_eq, beq_iff_eq] at h
  rcases h with (h | rfl) | rfl
  · exact unreserved_ascii h
  · decide
  · decide

theorem quotePlusChar_quoted (c : Char) : ∀ d ∈ quotePlusChar c, quotedChar d = true := by
  intro d hd
  rw [quotePlusChar] at hd
  split_ifs at hd with hunreserved hblank
  · rw [List.mem_singleton.mp hd, quotedChar, hunreserved]
    rfl
  · rw [List.mem_singleton.mp hd]
    decide
  · obtain ⟨b, -, hd⟩ := List.mem_flatMap.mp hd
    have hb := b.toNat_lt
    have hhigh := (hexUpper_value (b.toNat / 16) (by omega)).2
    have hlow := (hexUpper_value (b.toNat % 16) (by omega)).2
    simp only [List.mem_cons, List.not_mem_nil, or_false] at hd
    rcases hd with rfl | rfl | rfl
    · decide
    · rw [quotedChar, hhigh]
      rfl
    · rw [quotedChar, hlow]
      rfl

theorem quotePlus_quoted {text : List Char} {c : Char} (h : c ∈ quotePlus text) :
    quotedChar c = true := by
  obtain ⟨d, -, hd⟩ := List.mem_flatMap.mp h
  exact quotePlusChar_quoted d c hd

/-! ### Names and values -/

/-- A run of ASCII is read as a whole. -/
theorem unquoteFrom_ascii {text : List Char} (h : ∀ c ∈ text, c.toNat < 0x80) (run : List Char) :
    unquoteFrom run text = unquoteRun (run.reverse ++ text) := by
  induction text generalizing run with
  | nil => rw [unquoteFrom, List.append_nil]
  | cons c text ih =>
    rw [unquoteFrom, if_pos (h c List.mem_cons_self),
      ih (fun d hd => h d (List.mem_cons_of_mem c hd)), List.reverse_cons, List.append_assoc]
    rfl

theorem unquoteBytes_cons {c : Char} (h : c ≠ '%') (text : List Char) :
    unquoteBytes (c :: text) = UInt8.ofNat c.toNat :: unquoteBytes text := by
  rw [unquoteBytes]
  exact fun a b rest hc _ => h hc

theorem unquoteBytes_byte (b : UInt8) (text : List Char) :
    unquoteBytes ('%' :: hexUpper (b.toNat / 16) :: hexUpper (b.toNat % 16) :: text) =
      b :: unquoteBytes text := by
  have hb := b.toNat_lt
  have hsum : b.toNat / 16 * 16 + b.toNat % 16 = b.toNat := by omega
  rw [unquoteBytes, (hexUpper_value (b.toNat / 16) (by omega)).1,
    (hexUpper_value (b.toNat % 16) (by omega)).1]
  simp only [hsum, UInt8.ofNat_toNat]

def plusToBlank (c : Char) : Char := if c = '+' then ' ' else c

theorem encodeChar_of_lt {c : Char} (h : c.toNat < 0x80) :
    String.utf8EncodeChar c = [UInt8.ofNat c.toNat] := by
  have hval : c.val.toNat ≤ 0x7f := Nat.le_of_lt_succ h
  rw [String.utf8EncodeChar]
  exact if_pos hval

theorem unquoteBytes_bytes (bytes : List UInt8) (text : List Char) :
    unquoteBytes ((bytes.flatMap fun b =>
        ['%', hexUpper (b.toNat / 16), hexUpper (b.toNat % 16)]) ++ text) =
      bytes ++ unquoteBytes text := by
  induction bytes with
  | nil => rfl
  | cons b bytes ih =>
    rw [List.flatMap_cons, List.append_assoc]
    show unquoteBytes ('%' :: _ :: _ :: _) = _
    rw [unquoteBytes_byte]
    exact congrArg (List.cons b) ih

/-- A character is read back as the bytes it is encoded with. -/
theorem unquoteBytes_quotePlusChar (c : Char) (text : List Char) :
    unquoteBytes ((quotePlusChar c).map plusToBlank ++ text) =
      String.utf8EncodeChar c ++ unquoteBytes text := by
  rw [quotePlusChar]
  split_ifs with hunreserved hblank
  · have hplus : c ≠ '+' := by
      rintro rfl
      revert hunreserved
      decide
    have hpercent : c ≠ '%' := by
      rintro rfl
      revert hunreserved
      decide
    rw [encodeChar_of_lt (unreserved_ascii hunreserved)]
    show unquoteBytes (plusToBlank c :: text) = _
    rw [plusToBlank, if_neg hplus, unquoteBytes_cons hpercent]
    rfl
  · subst hblank
    exact unquoteBytes_cons (by decide) text
  · have hkept : ((String.utf8EncodeChar c).flatMap fun b =>
        ['%', hexUpper (b.toNat / 16), hexUpper (b.toNat % 16)]).map plusToBlank =
          (String.utf8EncodeChar c).flatMap fun b =>
            ['%', hexUpper (b.toNat / 16), hexUpper (b.toNat % 16)] := by
      have hdigit : ∀ n < 16, hexUpper n ≠ '+' := by decide
      rw [List.map_flatMap]
      congr 1
      funext b
      have hb := b.toNat_lt
      simp only [List.map_cons, List.map_nil, plusToBlank,
        if_neg (hdigit (b.toNat / 16) (by omega)), if_neg (hdigit (b.toNat % 16) (by omega))]
      rfl
    rw [hkept, unquoteBytes_bytes]

theorem unquoteBytes_quotePlus (text : List Char) :
    unquoteBytes ((quotePlus text).map plusToBlank) = encode text := by
  induction text with
  | nil => rfl
  | cons c text ih =>
    rw [quotePlus, List.flatMap_cons, List.map_append, unquoteBytes_quotePlusChar, ← quotePlus, ih]
    rfl

/-- What has been quoted is read back. -/
theorem unquotePlus_quotePlus (text : List Char) : unquotePlus (quotePlus text) = text := by
  have hascii : ∀ c ∈ (quotePlus text).map plusToBlank, c.toNat < 0x80 := by
    intro c hc
    obtain ⟨d, hd, rfl⟩ := List.mem_map.mp hc
    rw [plusToBlank]
    split_ifs
    · decide
    · exact quotedChar_ascii (quotePlus_quoted hd)
  have hdecode := decodeFrom_encode text []
  rw [List.append_nil] at hdecode
  show unquoteFrom [] ((quotePlus text).map plusToBlank) = text
  rw [unquoteFrom_ascii hascii, List.reverse_nil, List.nil_append, unquoteRun,
    unquoteBytes_quotePlus, hdecode, List.length_nil, decodeFrom, List.append_nil]

/-! ### Queries -/

theorem not_mem_quotePlus {c : Char} (h : quotedChar c = false) (text : List Char) :
    c ∉ quotePlus text := by
  intro hc
  rw [quotePlus_quoted hc] at h
  cases h

theorem partition_writePair (pair : List Char × List Char) :
    partition '=' (writePair pair) = (quotePlus pair.1, some (quotePlus pair.2)) :=
  partition_append (not_mem_quotePlus (by decide) pair.1) (quotePlus pair.2)

/-- What has been written as a query is read back. -/
theorem parseQsl_urlencode (pairs : List (List Char × List Char)) :
    parseQsl (urlencode pairs) = pairs := by
  have hsign : ∀ piece ∈ pairs.map writePair, '&' ∉ piece := by
    intro piece hpiece hmem
    obtain ⟨pair, -, rfl⟩ := List.mem_map.mp hpiece
    rw [writePair, List.mem_append, List.mem_cons] at hmem
    rcases hmem with h | h | h
    · exact not_mem_quotePlus (by decide) pair.1 h
    · cases h
    · exact not_mem_quotePlus (by decide) pair.2 h
  have hread (pairs : List (List Char × List Char)) :
      ((pairs.map writePair).filter (· ≠ [])).map (fun piece =>
        (unquotePlus (partition '=' piece).1, unquotePlus ((partition '=' piece).2.getD []))) =
        pairs := by
    induction pairs with
    | nil => rfl
    | cons pair pairs ih =>
      have hne : writePair pair ≠ [] := List.append_ne_nil_of_right_ne_nil _ (List.cons_ne_nil _ _)
      rw [List.map_cons, List.filter_cons_of_pos (by simp [hne]), List.map_cons, ih,
        partition_writePair]
      simp only [Option.getD_some, unquotePlus_quotePlus]
  cases pairs with
  | nil => rfl
  | cons pair pairs =>
    have hsplit : (['&'].intercalate ((pair :: pairs).map writePair)).splitOn '&' =
        (pair :: pairs).map writePair := by
      apply List.splitOn_intercalate
      · exact hsign
      · simp
    rw [parseQsl, urlencode, hsplit]
    exact hread (pair :: pairs)

end UrlQuery

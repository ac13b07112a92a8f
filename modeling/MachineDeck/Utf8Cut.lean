import MachineDeck.Utf8Text
import Mathlib.Data.Char
import Mathlib.Tactic.SplitIfs

/-!
# Texts cut at a byte

* `encode` — the bytes of a text, `decodeFrom_encode` — a text in front of other bytes is read back;
* `decode_take` — what is read of the first bytes of a text begins with every part of it that lies
  within them;
* `takeBytes_append`, `takeBytes_of_le` — the same of whole characters.
-/

namespace Utf8Text

def encode (text : List Char) : List UInt8 := text.flatMap String.utf8EncodeChar

theorem encode_append (text text' : List Char) : encode (text ++ text') =
    encode text ++ encode text' := List.flatMap_append

theorem length_encode (text : List Char) : (encode text).length = byteSize text := by
  rw [encode, List.length_flatMap, byteSize]
  simp only [String.length_utf8EncodeChar]

/-! ### One character -/

theorem toNat_byte {n : ℕ} (h : n < 256) : (UInt8.ofNat n).toNat = n := by
  rw [UInt8.toNat_ofNat', Nat.mod_eq_of_lt h]

/-- A byte that goes on with a character. -/
theorem tails_continue {n low high value k : ℕ} (hk : k < 64) (hlow : low ≤ k + 0x80)
    (hhigh : k + 0x80 ≤ high) (rest : List UInt8) :
    tails (n + 1) low high value (UInt8.ofNat (k + 0x80) :: rest) =
      tails n 0x80 0xBF (value * 64 + k) rest := by
  have hmod : (k + 0x80) % 64 = k := by omega
  rw [tails, toNat_byte (by omega), if_pos ⟨hlow, hhigh⟩, hmod]

theorem decodeChar_lead {b n low high value : ℕ} (hb : b < 256) (hascii : ¬ b < 0x80)
    (hlead : lead b = some (n, low, high)) {bytes rest : List UInt8}
    (htails : tails n low high (b % 2 ^ (6 - n)) bytes = (some value, rest)) :
    decodeChar (UInt8.ofNat b) bytes = (Char.ofNat value, rest) := by
  rw [decodeChar, toNat_byte hb, if_neg hascii, hlead]
  simp only [htails]

/-- The first of three bytes, and the range of the second. -/
theorem lead_three {v : ℕ} (hlow : 0x7ff < v) (hhigh : v ≤ 0xffff)
    (hvalid : v < 0xD800 ∨ 0xDFFF < v ∧ v < 0x110000) :
    ∃ low high, lead (v / 4096 % 0x10 + 0xe0) = some (2, low, high) ∧
      low ≤ v / 64 % 0x40 + 0x80 ∧ v / 64 % 0x40 + 0x80 ≤ high := by
  unfold lead
  split_ifs
  · omega
  · exact ⟨_, _, rfl, by omega, by omega⟩
  · exact ⟨_, _, rfl, by omega, by omega⟩
  · exact ⟨_, _, rfl, by omega, by omega⟩
  all_goals omega

theorem lead_four {v : ℕ} (hlow : 0xffff < v) (hhigh : v < 0x110000) :
    ∃ low high, lead (v / 262144 % 0x08 + 0xf0) = some (3, low, high) ∧
      low ≤ v / 4096 % 0x40 + 0x80 ∧ v / 4096 % 0x40 + 0x80 ≤ high := by
  unfold lead
  split_ifs
  · omega
  · omega
  · omega
  · omega
  · exact ⟨_, _, rfl, by omega, by omega⟩
  · exact ⟨_, _, rfl, by omega, by omega⟩
  · exact ⟨_, _, rfl, by omega, by omega⟩
  · omega

/-- A character is read from its bytes. -/
theorem decodeChar_encode (c : Char) (rest : List UInt8) :
    ∃ b bytes, String.utf8EncodeChar c = b :: bytes ∧ decodeChar b (bytes ++ rest) = (c, rest) := by
  have hvalid : c.val.toNat < 0xD800 ∨ 0xDFFF < c.val.toNat ∧ c.val.toNat < 0x110000 := c.valid
  have hback : Char.ofNat c.val.toNat = c := Char.ofNat_toNat c
  generalize hv : c.val.toNat = v at hvalid hback
  rw [String.utf8EncodeChar]
  simp only [hv]
  split_ifs with h₁ h₂ h₃
  · refine ⟨_, _, rfl, ?_⟩
    rw [decodeChar, toNat_byte (by omega), if_pos (by omega), hback, List.nil_append]
  · refine ⟨_, _, rfl, ?_⟩
    have hlead : lead (v / 64 % 0x20 + 0xc0) = some (1, 0x80, 0xBF) := if_pos (by omega)
    rw [← hback]
    apply decodeChar_lead (by omega) (by omega) hlead
    rw [List.cons_append, tails_continue (by omega) (by omega) (by omega), tails, List.nil_append]
    have hvalue : (v / 64 % 0x20 + 0xc0) % 2 ^ (6 - 1) * 64 + v % 0x40 = v := by omega
    rw [hvalue]
  · refine ⟨_, _, rfl, ?_⟩
    obtain ⟨low, high, hlead, hlow, hhigh⟩ := lead_three (by omega) h₃ hvalid
    rw [← hback]
    apply decodeChar_lead (by omega) (by omega) hlead
    rw [List.cons_append, tails_continue (by omega) hlow hhigh, List.cons_append,
      tails_continue (by omega) (by omega) (by omega), tails, List.nil_append]
    have hvalue : ((v / 4096 % 0x10 + 0xe0) % 2 ^ (6 - 2) * 64 + v / 64 % 0x40) * 64 +
        v % 0x40 = v := by omega
    rw [hvalue]
  · refine ⟨_, _, rfl, ?_⟩
    obtain ⟨low, high, hlead, hlow, hhigh⟩ := lead_four (v := v) (by omega) (by omega)
    rw [← hback]
    apply decodeChar_lead (by omega) (by omega) hlead
    rw [List.cons_append, tails_continue (by omega) hlow hhigh, List.cons_append,
      tails_continue (by omega) (by omega) (by omega), List.cons_append,
      tails_continue (by omega) (by omega) (by omega), tails, List.nil_append]
    have hvalue : (((v / 262144 % 0x08 + 0xf0) % 2 ^ (6 - 3) * 64 + v / 4096 % 0x40) * 64 +
        v / 64 % 0x40) * 64 + v % 0x40 = v := by omega
    rw [hvalue]

/-! ### Texts -/

theorem decodeFrom_cons (b : UInt8) (bytes : List UInt8) :
    decodeFrom (b :: bytes).length (b :: bytes) =
      (decodeChar b bytes).1 :: decodeFrom (decodeChar b bytes).2.length (decodeChar b bytes).2 := by
  have hlength := decodeChar_length b bytes
  rw [List.length_cons, decodeFrom, decodeFrom_of_length_le (by omega)]

/-- A text in front of other bytes is read back. -/
theorem decodeFrom_encode (text : List Char) (rest : List UInt8) :
    decodeFrom (encode text ++ rest).length (encode text ++ rest) =
      text ++ decodeFrom rest.length rest := by
  induction text with
  | nil => rfl
  | cons c text ih =>
    obtain ⟨b, bytes, hbytes, hchar⟩ := decodeChar_encode c (encode text ++ rest)
    have hencode : encode (c :: text) ++ rest = b :: (bytes ++ (encode text ++ rest)) := by
      rw [encode, List.flatMap_cons, hbytes, ← encode, List.append_assoc, List.cons_append]
    rw [hencode, decodeFrom_cons, hchar, ih]
    rfl

/-- **The first bytes of a text**, read again, begin with what lies within them. -/
theorem decode_take {text : List Char} {n : ℕ} (h : byteSize text ≤ n) (rest : List Char) :
    (decode ((encode (text ++ rest)).take n)).toList =
      text ++ (decode ((encode rest).take (n - byteSize text))).toList := by
  have htake : (encode (text ++ rest)).take n =
      encode text ++ (encode rest).take (n - byteSize text) := by
    rw [encode_append, List.take_append, length_encode, List.take_of_length_le]
    rw [length_encode]
    exact h
  rw [decode, decode, String.toList_ofList, String.toList_ofList, htake, decodeFrom_encode]

/-- Only a line feed has its byte. -/
theorem lineFeed_mem_encodeChar {c : Char} (h : 10 ∈ String.utf8EncodeChar c) : c = '\n' := by
  have hvalue : c.val.toNat < 0x110000 := by
    have hvalid : c.val.toNat < 0xD800 ∨ 0xDFFF < c.val.toNat ∧ c.val.toNat < 0x110000 := c.valid
    omega
  have hback : Char.ofNat c.val.toNat = c := Char.ofNat_toNat c
  generalize hv : c.val.toNat = v at hvalue hback
  have hbyte {n : ℕ} (hn : n < 256) (h : (10 : UInt8) = UInt8.ofNat n) : n = 10 := by
    have hnat := congrArg UInt8.toNat h
    rw [toNat_byte hn] at hnat
    exact hnat.symm
  rw [String.utf8EncodeChar] at h
  simp only [hv] at h
  split_ifs at h
  · rw [← hback, hbyte (by omega) (List.mem_singleton.mp h)]
  all_goals
    exfalso
    simp only [List.mem_cons, List.not_mem_nil, or_false] at h
  · rcases h with h | h
    all_goals
      have hten := hbyte (by omega) h
      omega
  · rcases h with h | h | h
    all_goals
      have hten := hbyte (by omega) h
      omega
  · rcases h with h | h | h | h
    all_goals
      have hten := hbyte (by omega) h
      omega

theorem lineFeed_not_mem_encode {text : List Char} (h : '\n' ∉ text) : 10 ∉ encode text := by
  intro hmem
  obtain ⟨c, hc, hbyte⟩ := List.mem_flatMap.mp hmem
  exact h (lineFeed_mem_encodeChar hbyte ▸ hc)

theorem byteSize_append (text text' : List Char) :
    byteSize (text ++ text') = byteSize text + byteSize text' := by
  rw [byteSize, List.map_append, List.sum_append, byteSize, byteSize]

theorem byteSize_eq_zero {text : List Char} (h : byteSize text = 0) : text = [] := by
  cases text with
  | nil => rfl
  | cons c text =>
    rw [byteSize, List.map_cons, List.sum_cons] at h
    have hpositive := c.utf8Size_pos
    omega

/-- Texts of the same size at the same place. -/
theorem eq_of_isPrefix {text text' behind : List Char} (hsize : byteSize text' = byteSize text)
    (h : text'.IsPrefix (text ++ behind)) : text' = text := by
  rcases List.prefix_or_prefix_of_prefix h (List.prefix_append text behind) with
    ⟨rest, hrest⟩ | ⟨rest, hrest⟩
  · rw [← hrest, byteSize_append] at hsize
    rw [← hrest, byteSize_eq_zero (show byteSize rest = 0 by omega), List.append_nil]
  · rw [← hrest, byteSize_append] at hsize
    rw [← hrest, byteSize_eq_zero (show byteSize rest = 0 by omega), List.append_nil]

theorem takeBytes_append {text : List Char} {n : ℕ} (h : byteSize text ≤ n) (rest : List Char) :
    takeBytes n (text ++ rest) = text ++ takeBytes (n - byteSize text) rest := by
  induction text generalizing n with
  | nil => rfl
  | cons c text ih =>
    have hsize : byteSize (c :: text) = c.utf8Size + byteSize text := by
      rw [byteSize, List.map_cons, List.sum_cons, byteSize]
    rw [hsize] at h ⊢
    rw [List.cons_append, takeBytes, if_pos (by omega), ih (by omega), List.cons_append]
    congr 3
    omega

theorem takeBytes_of_le {text : List Char} {n : ℕ} (h : byteSize text ≤ n) :
    takeBytes n text = text := by
  have happend := takeBytes_append h []
  rw [List.append_nil] at happend
  rw [happend, takeBytes, List.append_nil]

theorem decode_encode (text : List Char) : decode (encode text) = String.ofList text := by
  have hdecode := decodeFrom_encode text []
  rw [List.append_nil] at hdecode
  rw [decode, hdecode, List.length_nil, decodeFrom, List.append_nil]

theorem takeBytes_isPrefix (size : ℕ) (text : List Char) : takeBytes size text <+: text := by
  induction text generalizing size with
  | nil => exact List.prefix_refl []
  | cons c text ih =>
    rw [takeBytes]
    split_ifs
    · exact List.cons_prefix_cons.mpr ⟨rfl, ih _⟩
    · exact List.nil_prefix

/-! ### ASCII characters are read from one byte -/

theorem tails_some {n low high value v : ℕ} {bytes rest : List UInt8}
    (h : tails (n + 1) low high value bytes = (some v, rest)) :
    ∃ k bytes', low ≤ k ∧ k ≤ high ∧
      tails n 0x80 0xBF (value * 64 + k % 64) bytes' = (some v, rest) := by
  cases bytes with
  | nil => cases h
  | cons b bytes =>
    rw [tails] at h
    split_ifs at h with hb
    · exact ⟨b.toNat, bytes, hb.1, hb.2, h⟩
    · cases h

theorem tails_zero {low high value v : ℕ} {bytes rest : List UInt8}
    (h : tails 0 low high value bytes = (some v, rest)) : v = value :=
  (Option.some.inj (Prod.mk.inj h).1).symm

/-- The code point of a character of several bytes, from its first two bytes on. -/
theorem tails_range {n low high value v : ℕ} {bytes rest : List UInt8} (hn : n ≤ 2)
    (h : tails (n + 1) low high value bytes = (some v, rest)) :
    ∃ k, low ≤ k ∧ k ≤ high ∧ (value * 64 + k % 64) * 64 ^ n ≤ v ∧
      v < (value * 64 + k % 64 + 1) * 64 ^ n := by
  obtain ⟨k, bytes', hlow, hhigh, h⟩ := tails_some h
  refine ⟨k, hlow, hhigh, ?_⟩
  generalize value * 64 + k % 64 = value at h
  match n with
  | 0 =>
    rw [tails_zero h]
    omega
  | 1 =>
    obtain ⟨j, _, _, _, h⟩ := tails_some h
    rw [tails_zero h]
    omega
  | 2 =>
    obtain ⟨j, _, _, _, h⟩ := tails_some h
    obtain ⟨i, _, _, _, h⟩ := tails_some h
    rw [tails_zero h]
    omega

/-- A character of several bytes is none of ASCII. -/
theorem tails_not_ascii {b n low high v : ℕ} (hlead : lead b = some (n, low, high))
    {bytes rest : List UInt8} (h : tails n low high (b % 2 ^ (6 - n)) bytes = (some v, rest)) :
    0x80 ≤ v ∧ v.isValidChar := by
  have hvalid : v.isValidChar ↔ v < 0xD800 ∨ 0xDFFF < v ∧ v < 0x110000 := Iff.rfl
  rw [hvalid]
  unfold lead at hlead
  split_ifs at hlead <;> obtain ⟨rfl, rfl, rfl⟩ := Option.some.inj hlead <;>
    obtain ⟨k, hlow, hhigh, hv, hv'⟩ := tails_range (by omega) h <;> omega

theorem decodeChar_ascii {b : UInt8} {rest : List UInt8} (h : (decodeChar b rest).1.toNat < 0x80) :
    b.toNat < 0x80 := by
  by_contra hb
  rw [decodeChar, if_neg hb] at h
  have hreplacement : ¬ replacement.toNat < 0x80 := by decide
  split at h
  · exact hreplacement h
  · rename_i n low high hlead
    split at h
    · rename_i v rest' htails
      obtain ⟨hv, hvalid⟩ := tails_not_ascii hlead htails
      have hval : (Char.ofNat v).toNat = v := by
        rw [Char.ofNat, dif_pos hvalid]
        rfl
      simp only at h
      omega
    · exact hreplacement h

theorem encodeChar_ascii {b : UInt8} (h : b.toNat < 0x80) :
    String.utf8EncodeChar (Char.ofNat b.toNat) = [b] := by
  have hval : (Char.ofNat b.toNat).val.toNat = b.toNat := by
    have hvalid : b.toNat.isValidChar := Or.inl (by omega)
    rw [Char.ofNat, dif_pos hvalid]
    rfl
  have hle : b.toNat ≤ 0x7f := by omega
  rw [String.utf8EncodeChar]
  simp only [hval, if_pos hle, UInt8.ofNat_toNat]

/-- Bytes that are read as ASCII are its encoding. -/
theorem encode_of_decodeFrom {n : ℕ} {bytes : List UInt8} (hn : bytes.length ≤ n)
    (h : ∀ c ∈ decodeFrom n bytes, c.toNat < 0x80) : encode (decodeFrom n bytes) = bytes := by
  induction n generalizing bytes with
  | zero =>
    rw [List.eq_nil_of_length_eq_zero (Nat.le_zero.mp hn)]
    rfl
  | succ n ih =>
    cases bytes with
    | nil => rfl
    | cons b rest =>
      rw [decodeFrom] at h
      have hb := decodeChar_ascii (h _ List.mem_cons_self)
      have hchar : decodeChar b rest = (Char.ofNat b.toNat, rest) := by rw [decodeChar, if_pos hb]
      rw [hchar] at h
      have hrest := ih (Nat.le_of_succ_le_succ hn) fun c hc => h c (List.mem_cons_of_mem _ hc)
      rw [decodeFrom, hchar, encode, List.flatMap_cons, encodeChar_ascii hb, List.singleton_append,
        ← encode, hrest]

end Utf8Text

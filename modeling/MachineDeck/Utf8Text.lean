import Mathlib.Algebra.Group.Nat.Defs
import Mathlib.Algebra.GroupWithZero.Nat
import Mathlib.Data.Nat.Notation
import Mathlib.Data.List.Basic

/-!
# Bytes read as UTF-8, errors replaced

`bytes.decode("utf-8", errors="replace")`: of bytes that begin a character and do not go on as
one, each longest possible beginning becomes one replacement character.

* `lead`, `tails`, `decodeChar` — one character, or one replacement;
* `decode` — a whole text; `decodeFrom_of_length_le` — the budget it reads with is enough;
* `byteSize`, `takeBytes` — the size of a text, and the longest beginning of a given size.
-/

namespace Utf8Text

def replacement : Char := '\uFFFD'

/-- For the first byte of a longer character: the number of bytes that follow it, and the range of
the next one. -/
def lead (b : ℕ) : Option (ℕ × ℕ × ℕ) :=
  if 0xC2 ≤ b ∧ b ≤ 0xDF then some (1, 0x80, 0xBF)
  else if b = 0xE0 then some (2, 0xA0, 0xBF)
  else if b = 0xED then some (2, 0x80, 0x9F)
  else if 0xE1 ≤ b ∧ b ≤ 0xEF then some (2, 0x80, 0xBF)
  else if b = 0xF0 then some (3, 0x90, 0xBF)
  else if b = 0xF4 then some (3, 0x80, 0x8F)
  else if 0xF1 ≤ b ∧ b ≤ 0xF3 then some (3, 0x80, 0xBF)
  else none

/-- The bytes that follow, as far as they fit, and the code point if all of them do. -/
def tails : ℕ → ℕ → ℕ → ℕ → List UInt8 → Option ℕ × List UInt8
  | 0, _, _, value, bytes => (some value, bytes)
  | _ + 1, _, _, _, [] => (none, [])
  | n + 1, low, high, value, b :: rest =>
    if low ≤ b.toNat ∧ b.toNat ≤ high then tails n 0x80 0xBF (value * 64 + b.toNat % 64) rest
    else (none, b :: rest)

def decodeChar (b : UInt8) (rest : List UInt8) : Char × List UInt8 :=
  if b.toNat < 0x80 then (Char.ofNat b.toNat, rest)
  else
    match lead b.toNat with
    | none => (replacement, rest)
    | some (n, low, high) =>
      match tails n low high (b.toNat % 2 ^ (6 - n)) rest with
      | (some value, rest) => (Char.ofNat value, rest)
      | (none, rest) => (replacement, rest)

def decodeFrom : ℕ → List UInt8 → List Char
  | 0, _ => []
  | _ + 1, [] => []
  | n + 1, b :: rest => (decodeChar b rest).1 :: decodeFrom n (decodeChar b rest).2

def decode (bytes : List UInt8) : String := String.ofList (decodeFrom bytes.length bytes)

theorem tails_length (n low high value : ℕ) (bytes : List UInt8) :
    (tails n low high value bytes).2.length ≤ bytes.length := by
  induction n generalizing low high value bytes with
  | zero => exact Nat.le_refl _
  | succ n ih =>
    cases bytes with
    | nil => exact Nat.le_refl _
    | cons b rest =>
      rw [tails]
      split
      · exact Nat.le_succ_of_le (ih _ _ _ rest)
      · exact Nat.le_refl _

theorem decodeChar_length (b : UInt8) (rest : List UInt8) :
    (decodeChar b rest).2.length ≤ rest.length := by
  unfold decodeChar
  split
  · exact Nat.le_refl _
  · split
    · exact Nat.le_refl _
    · rename_i n low high _
      have htails := tails_length n low high (b.toNat % 2 ^ (6 - n)) rest
      split
      · rename_i heq
        rw [heq] at htails
        exact htails
      · rename_i heq
        rw [heq] at htails
        exact htails

/-- Every character takes a byte at least, so a budget of one for each byte is enough. -/
theorem decodeFrom_of_length_le {n : ℕ} {bytes : List UInt8} (h : bytes.length ≤ n) :
    decodeFrom n bytes = decodeFrom bytes.length bytes := by
  induction n using Nat.strongRecOn generalizing bytes with
  | ind n ih =>
    cases bytes with
    | nil => cases n <;> rfl
    | cons b rest =>
      cases n with
      | zero => cases h
      | succ n =>
        have hrest := decodeChar_length b rest
        rw [List.length_cons] at h
        rw [List.length_cons, decodeFrom, decodeFrom,
          ih n (Nat.lt_succ_self n) (by omega), ← ih rest.length (by omega) hrest]

/-- The size of the text in UTF-8. -/
def byteSize (text : List Char) : ℕ := (text.map Char.utf8Size).sum

/-- The longest beginning of whole characters within the size. -/
def takeBytes : ℕ → List Char → List Char
  | _, [] => []
  | size, c :: text =>
    if c.utf8Size ≤ size then c :: takeBytes (size - c.utf8Size) text else []

theorem byteSize_takeBytes (size : ℕ) (text : List Char) : byteSize (takeBytes size text) ≤ size := by
  induction text generalizing size with
  | nil => exact Nat.zero_le _
  | cons c text ih =>
    rw [takeBytes]
    split
    · have hrest := ih (size - c.utf8Size)
      simp only [byteSize, List.map_cons, List.sum_cons] at hrest ⊢
      omega
    · exact Nat.zero_le _

example : decode [0x61, 0xFF, 0xE2, 0x82, 0xAC, 0xE2, 0x82, 0x62] = "a\uFFFD€\uFFFDb" := by decide

end Utf8Text

import Mathlib.Data.List.DropRight
import Mathlib.Data.Nat.Basic

/-!
# Base64 text

The URL-safe alphabet, with the padding taken off and put back.

* `encode`, `decode` — three bytes to four characters and back;
* `rstrip`, `padded` — a text without its padding, and with it again;
* `decode_padded` — what was encoded and stripped is decoded;
* `length_decode` — how many bytes a text holds at most.
-/

namespace Base64

/-- The character of a number below 64. -/
def symbol (n : ℕ) : Char :=
  if n < 26 then Char.ofNat (65 + n)
  else if n < 52 then Char.ofNat (71 + n)
  else if n < 62 then Char.ofNat (n - 4)
  else if n = 62 then '-' else '_'

/-- The number of a character; the two characters of the other alphabet are read as well. -/
def value (c : Char) : Option ℕ :=
  if 'A' ≤ c ∧ c ≤ 'Z' then some (c.toNat - 65)
  else if 'a' ≤ c ∧ c ≤ 'z' then some (c.toNat - 71)
  else if '0' ≤ c ∧ c ≤ '9' then some (c.toNat + 4)
  else if c = '-' ∨ c = '+' then some 62
  else if c = '_' ∨ c = '/' then some 63
  else none

theorem value_symbol : ∀ n < 64, value (symbol n) = some n := by decide

theorem symbol_ne_pad : ∀ n < 64, symbol n ≠ '=' := by decide

def encode : List UInt8 → List Char
  | [] => []
  | [a] => [symbol (a.toNat / 4), symbol (a.toNat % 4 * 16), '=', '=']
  | [a, b] =>
    [symbol (a.toNat / 4), symbol (a.toNat % 4 * 16 + b.toNat / 16),
      symbol (b.toNat % 16 * 4), '=']
  | a :: b :: c :: rest =>
    symbol (a.toNat / 4) :: symbol (a.toNat % 4 * 16 + b.toNat / 16) ::
      symbol (b.toNat % 16 * 4 + c.toNat / 64) :: symbol (c.toNat % 64) :: encode rest

/-- Four characters at a time; pads stand at the end of the last four only. -/
def decode : List Char → Option (List UInt8)
  | [] => some []
  | w :: x :: y :: z :: rest =>
    if z = '=' then
      if rest ≠ [] then none
      else if y = '=' then do
        let w ← value w
        let x ← value x
        return [UInt8.ofNat (w * 4 + x / 16)]
      else do
        let w ← value w
        let x ← value x
        let y ← value y
        return [UInt8.ofNat (w * 4 + x / 16), UInt8.ofNat (x % 16 * 16 + y / 4)]
    else do
      let w ← value w
      let x ← value x
      let y ← value y
      let z ← value z
      let bytes ← decode rest
      return UInt8.ofNat (w * 4 + x / 16) :: UInt8.ofNat (x % 16 * 16 + y / 4) ::
        UInt8.ofNat (y % 4 * 64 + z) :: bytes
  | _ => none

theorem ofNat_eq {n : ℕ} {a : UInt8} (h : n = a.toNat) : UInt8.ofNat n = a := by
  rw [h, UInt8.ofNat_toNat]

theorem decode_encode (bytes : List UInt8) : decode (encode bytes) = some bytes := by
  induction bytes using encode.induct with
  | case1 => rfl
  | case2 a =>
      have ha := a.toNat_lt
      have h₁ : value (symbol (a.toNat / 4)) = some (a.toNat / 4) := value_symbol _ (by omega)
      have h₂ : value (symbol (a.toNat % 4 * 16)) = some (a.toNat % 4 * 16) :=
        value_symbol _ (by omega)
      simp only [encode, decode, if_true, ne_eq, not_true_eq_false, if_false, h₁, h₂,
        Option.bind_eq_bind, Option.bind_some, Option.pure_def]
      rw [ofNat_eq (by omega : a.toNat / 4 * 4 + a.toNat % 4 * 16 / 16 = a.toNat)]
  | case3 a b =>
      have ha := a.toNat_lt
      have hb := b.toNat_lt
      have h₁ : value (symbol (a.toNat / 4)) = some (a.toNat / 4) := value_symbol _ (by omega)
      have h₂ : value (symbol (a.toNat % 4 * 16 + b.toNat / 16)) =
          some (a.toNat % 4 * 16 + b.toNat / 16) := value_symbol _ (by omega)
      have h₃ : value (symbol (b.toNat % 16 * 4)) = some (b.toNat % 16 * 4) :=
        value_symbol _ (by omega)
      have hpad : symbol (b.toNat % 16 * 4) ≠ '=' := symbol_ne_pad _ (by omega)
      simp only [encode, decode, if_true, ne_eq, not_true_eq_false, if_false, hpad, h₁, h₂, h₃,
        Option.bind_eq_bind, Option.bind_some, Option.pure_def]
      rw [ofNat_eq (by omega :
          a.toNat / 4 * 4 + (a.toNat % 4 * 16 + b.toNat / 16) / 16 = a.toNat),
        ofNat_eq (by omega :
          (a.toNat % 4 * 16 + b.toNat / 16) % 16 * 16 + b.toNat % 16 * 4 / 4 = b.toNat)]
  | case4 a b c rest ih =>
      have ha := a.toNat_lt
      have hb := b.toNat_lt
      have hc := c.toNat_lt
      have h₁ : value (symbol (a.toNat / 4)) = some (a.toNat / 4) := value_symbol _ (by omega)
      have h₂ : value (symbol (a.toNat % 4 * 16 + b.toNat / 16)) =
          some (a.toNat % 4 * 16 + b.toNat / 16) := value_symbol _ (by omega)
      have h₃ : value (symbol (b.toNat % 16 * 4 + c.toNat / 64)) =
          some (b.toNat % 16 * 4 + c.toNat / 64) := value_symbol _ (by omega)
      have h₄ : value (symbol (c.toNat % 64)) = some (c.toNat % 64) := value_symbol _ (by omega)
      have hpad : symbol (c.toNat % 64) ≠ '=' := symbol_ne_pad _ (by omega)
      simp only [encode, decode, hpad, if_false, h₁, h₂, h₃, h₄, ih, Option.bind_eq_bind,
        Option.bind_some, Option.pure_def]
      rw [ofNat_eq (by omega :
          a.toNat / 4 * 4 + (a.toNat % 4 * 16 + b.toNat / 16) / 16 = a.toNat),
        ofNat_eq (by omega :
          (a.toNat % 4 * 16 + b.toNat / 16) % 16 * 16 +
            (b.toNat % 16 * 4 + c.toNat / 64) / 4 = b.toNat),
        ofNat_eq (by omega :
          (b.toNat % 16 * 4 + c.toNat / 64) % 4 * 64 + c.toNat % 64 = c.toNat)]

/-! ### Padding -/

def rstrip (text : List Char) : List Char := text.rdropWhile (· == '=')

theorem rstrip_pads (text : List Char) (pads : ℕ) :
    rstrip (text ++ List.replicate pads '=') = rstrip text := by
  induction pads with
  | zero => rw [List.replicate_zero, List.append_nil]
  | succ pads ih =>
      rw [List.replicate_succ', ← List.append_assoc, rstrip,
        List.rdropWhile_concat_pos _ _ _ (by decide)]
      exact ih

/-- As many pads as the length misses to a multiple of four. -/
def padded (text : List Char) : List Char :=
  text ++ List.replicate ((4 - text.length % 4) % 4) '='

/-- An encoded text is its symbols and the pads that make its length a multiple of four. -/
theorem encode_split (bytes : List UInt8) : ∃ body pads, encode bytes =
    body ++ List.replicate pads '=' ∧ '=' ∉ body ∧ pads ≤ 2 ∧ (body.length + pads) % 4 = 0 := by
  induction bytes using encode.induct with
  | case1 => exact ⟨[], 0, rfl, by simp, by omega, rfl⟩
  | case2 a =>
      have ha := a.toNat_lt
      refine ⟨[symbol (a.toNat / 4), symbol (a.toNat % 4 * 16)], 2, rfl, ?_, by omega, by simp⟩
      have h₁ := symbol_ne_pad (a.toNat / 4) (by omega)
      have h₂ := symbol_ne_pad (a.toNat % 4 * 16) (by omega)
      simp [h₁.symm, h₂.symm]
  | case3 a b =>
      have ha := a.toNat_lt
      have hb := b.toNat_lt
      refine ⟨[symbol (a.toNat / 4), symbol (a.toNat % 4 * 16 + b.toNat / 16),
        symbol (b.toNat % 16 * 4)], 1, rfl, ?_, by omega, by simp⟩
      have h₁ := symbol_ne_pad (a.toNat / 4) (by omega)
      have h₂ := symbol_ne_pad (a.toNat % 4 * 16 + b.toNat / 16) (by omega)
      have h₃ := symbol_ne_pad (b.toNat % 16 * 4) (by omega)
      simp [h₁.symm, h₂.symm, h₃.symm]
  | case4 a b c rest ih =>
      have ha := a.toNat_lt
      have hb := b.toNat_lt
      have hc := c.toNat_lt
      obtain ⟨body, pads, hbody, hno, hpads, hlength⟩ := ih
      refine ⟨symbol (a.toNat / 4) :: symbol (a.toNat % 4 * 16 + b.toNat / 16) ::
        symbol (b.toNat % 16 * 4 + c.toNat / 64) :: symbol (c.toNat % 64) :: body, pads, ?_, ?_,
        hpads, ?_⟩
      · rw [encode, hbody]
        rfl
      · have h₁ := symbol_ne_pad (a.toNat / 4) (by omega)
        have h₂ := symbol_ne_pad (a.toNat % 4 * 16 + b.toNat / 16) (by omega)
        have h₃ := symbol_ne_pad (b.toNat % 16 * 4 + c.toNat / 64) (by omega)
        have h₄ := symbol_ne_pad (c.toNat % 64) (by omega)
        simp [h₁.symm, h₂.symm, h₃.symm, h₄.symm, hno]
      · simp only [List.length_cons]
        omega

/-- The pads that were taken off are put back. -/
theorem padded_rstrip (bytes : List UInt8) : padded (rstrip (encode bytes)) = encode bytes := by
  obtain ⟨body, pads, hbody, hno, hpads, hlength⟩ := encode_split bytes
  have hstrip : rstrip (encode bytes) = body := by
    rw [hbody, rstrip_pads, rstrip, List.rdropWhile_eq_self_iff]
    intro hne
    have hlast := List.getLast_mem hne
    simp only [beq_iff_eq]
    exact fun h => hno (h ▸ hlast)
  have hcount : (4 - body.length % 4) % 4 = pads := by omega
  rw [hstrip, padded, hcount, ← hbody]

/-- A text is read back from its encoding without the padding. -/
theorem decode_padded (bytes : List UInt8) :
    decode (padded (rstrip (encode bytes))) = some bytes := by
  rw [padded_rstrip, decode_encode]

/-! ### Lengths -/

/-- Four characters are three bytes at most. -/
theorem length_decode {text : List Char} {bytes : List UInt8} (h : decode text = some bytes) :
    bytes.length * 4 ≤ text.length * 3 := by
  induction text using decode.induct generalizing bytes with
  | case1 => cases h; exact Nat.le_refl 0
  | case2 w x y rest hrest => simp [decode, hrest] at h
  | case3 w x rest hrest =>
      simp only [decode, hrest, if_true, if_false, Option.bind_eq_bind] at h
      obtain ⟨_, -, h⟩ := Option.bind_eq_some_iff.mp h
      obtain ⟨_, -, h⟩ := Option.bind_eq_some_iff.mp h
      cases h
      simp only [List.length_cons, List.length_nil]
      omega
  | case4 w x y rest hrest hy =>
      simp only [decode, hrest, hy, if_true, if_false, Option.bind_eq_bind] at h
      obtain ⟨_, -, h⟩ := Option.bind_eq_some_iff.mp h
      obtain ⟨_, -, h⟩ := Option.bind_eq_some_iff.mp h
      obtain ⟨_, -, h⟩ := Option.bind_eq_some_iff.mp h
      cases h
      simp only [List.length_cons, List.length_nil]
      omega
  | case5 w x y z rest hz ih =>
      simp only [decode, hz, if_false, Option.bind_eq_bind] at h
      obtain ⟨_, -, h⟩ := Option.bind_eq_some_iff.mp h
      obtain ⟨_, -, h⟩ := Option.bind_eq_some_iff.mp h
      obtain ⟨_, -, h⟩ := Option.bind_eq_some_iff.mp h
      obtain ⟨_, -, h⟩ := Option.bind_eq_some_iff.mp h
      obtain ⟨tail, htail, h⟩ := Option.bind_eq_some_iff.mp h
      cases h
      have hle := ih htail
      simp only [List.length_cons]
      omega
  | case6 text hnil hfour => rw [decode] at h <;> first | cases h | assumption

theorem length_padded (text : List Char) :
    (padded text).length = text.length + (4 - text.length % 4) % 4 := by
  rw [padded, List.length_append, List.length_replicate]

end Base64

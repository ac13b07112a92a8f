import MachineDeck.MarkedText
import MachineDeck.UrlSplit
import MachineDeck.Utf8Text

/-!
# The queries of URLs

What `urllib.parse` reads a query as, how it writes one, and how it puts a URL together.

* `unquote`, `parseQsl` — the names and values of a query;
* `quotePlus`, `urlencode`, `urlunsplit` — back to texts;
* `urlencode_spliced`, `urlunsplit_spliced` — exchanging values exchanges pieces of the URL.
-/

namespace UrlQuery

open HexDigits MarkedText UrlSplit

/-! ### Reading -/

/-- The bytes of an ASCII text with `%xx` read. -/
def unquoteBytes : List Char → List UInt8
  | [] => []
  | '%' :: a :: b :: rest =>
    match hexValue a, hexValue b with
    | some high, some low => UInt8.ofNat (high * 16 + low) :: unquoteBytes rest
    | _, _ => UInt8.ofNat 0x25 :: unquoteBytes (a :: b :: rest)
  | c :: rest => UInt8.ofNat c.toNat :: unquoteBytes rest

def unquoteRun (run : List Char) : List Char :=
  Utf8Text.decodeFrom (unquoteBytes run).length (unquoteBytes run)

/-- The runs of ASCII are read one by one; `run` is the current one, from right to left. -/
def unquoteFrom (run : List Char) : List Char → List Char
  | [] => unquoteRun run.reverse
  | c :: rest =>
    if c.toNat < 128 then unquoteFrom (c :: run) rest
    else unquoteRun run.reverse ++ c :: unquoteFrom [] rest

def unquote (text : List Char) : List Char := unquoteFrom [] text

/-- What a name or a value of a query stands for. -/
def unquotePlus (text : List Char) : List Char :=
  unquote (text.map fun c => if c = '+' then ' ' else c)

/-- `parse_qsl(query, keep_blank_values=True)`. -/
def parseQsl (query : List Char) : List (List Char × List Char) :=
  ((query.splitOn '&').filter (· ≠ [])).map fun piece =>
    (unquotePlus (partition '=' piece).1, unquotePlus ((partition '=' piece).2.getD []))

/-! ### Writing -/

/-- A digit as `%X` writes it. -/
def hexUpper (n : ℕ) : Char := (hexDigit n).toUpper

def unreserved (c : Char) : Bool := c.isAlphanum || "_.-~".toList.contains c

def quotePlusChar (c : Char) : List Char :=
  if unreserved c then [c]
  else if c = ' ' then ['+']
  else (String.utf8EncodeChar c).flatMap fun b =>
    ['%', hexUpper (b.toNat / 16), hexUpper (b.toNat % 16)]

def quotePlus (text : List Char) : List Char := text.flatMap quotePlusChar

def writePair (pair : List Char × List Char) : List Char :=
  quotePlus pair.1 ++ '=' :: quotePlus pair.2

def urlencode (pairs : List (List Char × List Char)) : List Char :=
  ['&'].intercalate (pairs.map writePair)

/-- For a scheme that has a network location. -/
def urlunsplit (parts : SplitResult) : List Char :=
  let url := parts.path
  let url :=
    if parts.netloc ≠ [] then
      '/' :: '/' :: parts.netloc ++ (if url ≠ [] ∧ url.head? ≠ some '/' then '/' :: url else url)
    else if "//".toList.isPrefixOf url then '/' :: '/' :: url
    else if parts.scheme ≠ [] ∧ (url = [] ∨ url.head? = some '/') then '/' :: '/' :: url
    else url
  let url := if parts.scheme ≠ [] then parts.scheme ++ ':' :: url else url
  let url := if parts.query ≠ [] then url ++ '?' :: parts.query else url
  if parts.fragment ≠ [] then url ++ '#' :: parts.fragment else url

/-- A web address, put together again. -/
theorem urlunsplit_web {scheme : List Char} (hscheme : scheme ∈ webSchemes) (netloc : List Char)
    {path : List Char} (hpath : path = [] ∨ path.head? = some '/') (query fragment : List Char) :
    urlunsplit ⟨scheme, netloc, path, query, fragment⟩ =
      scheme ++ "://".toList ++ netloc ++ path ++ signed '?' (filled query) ++
        signed '#' (filled fragment) := by
  have hne : scheme ≠ [] := by
    rintro rfl
    revert hscheme
    decide
  have hurl : (if netloc ≠ [] then
        '/' :: '/' :: netloc ++ (if path ≠ [] ∧ path.head? ≠ some '/' then '/' :: path else path)
      else if "//".toList.isPrefixOf path then '/' :: '/' :: path
      else if scheme ≠ [] ∧ (path = [] ∨ path.head? = some '/') then '/' :: '/' :: path
      else path) = '/' :: '/' :: netloc ++ path := by
    by_cases hnetloc : netloc = []
    · have hrooted : scheme ≠ [] ∧ (path = [] ∨ path.head? = some '/') := ⟨hne, hpath⟩
      rw [if_neg (not_not_intro hnetloc), if_pos hrooted, ite_self, hnetloc]
      rfl
    · have hkept : ¬ (path ≠ [] ∧ path.head? ≠ some '/') := by
        rintro ⟨hempty, hslash⟩
        exact hpath.elim hempty hslash
      rw [if_pos hnetloc, if_neg hkept]
  have hsigned (sign : Char) (url text : List Char) :
      (if text ≠ [] then url ++ sign :: text else url) =
        url ++ signed sign (filled text) := by
    by_cases htext : text = []
    · rw [if_neg (not_not_intro htext), filled, if_pos htext, signed, List.append_nil]
    · rw [if_pos htext, filled, if_neg htext, signed]
  simp only [urlunsplit]
  rw [hurl, if_pos hne, hsigned, hsigned]
  simp only [List.append_assoc, List.cons_append]
  rfl

/-! ### Values exchanged -/

section Exchanged

variable {word : List Char}

theorem urlencode_nil : urlencode [] = [] := rfl

theorem urlencode_singleton (pair : List Char × List Char) : urlencode [pair] = writePair pair := by
  simp [urlencode, List.intercalate]

theorem urlencode_cons (pair pair' : List Char × List Char)
    (pairs : List (List Char × List Char)) :
    urlencode (pair :: pair' :: pairs) = writePair pair ++ '&' :: urlencode (pair' :: pairs) := by
  simp [urlencode, List.intercalate]

/-- Each pair has at least its sign. -/
theorem urlencode_eq_nil {pairs : List (List Char × List Char)} :
    urlencode pairs = [] ↔ pairs = [] := by
  constructor
  · intro h
    match pairs with
    | [] => rfl
    | [pair] =>
      rw [urlencode_singleton, writePair] at h
      exact absurd (List.append_eq_nil_iff.mp h).2 (List.cons_ne_nil _ _)
    | pair :: pair' :: pairs =>
      rw [urlencode_cons] at h
      exact absurd (List.append_eq_nil_iff.mp h).2 (List.cons_ne_nil _ _)
  · rintro rfl
    rfl

theorem urlencode_spliced {change : List Char × List Char → List Char × List Char}
    {pairs : List (List Char × List Char)}
    (h : ∀ pair ∈ pairs, Spliced word (writePair pair) (writePair (change pair))) :
    Spliced word (urlencode pairs) (urlencode (pairs.map change)) := by
  induction pairs with
  | nil => exact .nil
  | cons pair pairs ih =>
    have hpair := h pair List.mem_cons_self
    have hpairs := ih fun pair hmem => h pair (List.mem_cons_of_mem _ hmem)
    cases pairs with
    | nil =>
      rw [List.map_cons, List.map_nil, urlencode_singleton, urlencode_singleton]
      exact hpair
    | cons pair' pairs =>
      rw [List.map_cons, List.map_cons, urlencode_cons, urlencode_cons]
      exact hpair.append (.keep '&' hpairs)

/-- A URL with another query. -/
theorem urlunsplit_spliced {parts : SplitResult} {query : List Char}
    (h : Spliced word parts.query query) (hempty : parts.query = [] ↔ query = []) :
    Spliced word (urlunsplit parts) (urlunsplit { parts with query := query }) := by
  simp only [urlunsplit]
  generalize (if parts.scheme ≠ [] then parts.scheme ++ ':' :: _ else _ : List Char) = url
  by_cases hquery : parts.query = []
  · rw [if_neg (not_not_intro hquery), if_neg (not_not_intro (hempty.mp hquery))]
    exact .refl _
  · rw [if_pos hquery, if_pos fun hnil => hquery (hempty.mpr hnil)]
    have hurl : Spliced word (url ++ '?' :: parts.query) (url ++ '?' :: query) :=
      (Spliced.keep '?' h).behind url
    split_ifs
    · exact hurl.append (.refl _)
    · exact hurl

end Exchanged

end UrlQuery

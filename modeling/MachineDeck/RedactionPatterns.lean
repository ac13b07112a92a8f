import MachineDeck.LineText
import MachineDeck.RegexText
import MachineDeck.UrlQuery

/-!
# What both redactions look for

Names of secrets, assignments, bearer headers, tokens and URLs.

* `Alphabet` — what Unicode says of characters outside ASCII;
* `anyCase`, `apiKey` — words where case is ignored;
* `assignmentOf`, `bearerPattern`, `jwtPattern`, `urlPattern` — the patterns;
* `keepGroups` — a replacement that begins with what some groups matched;
* `url_match` — what a URL looks like; `bearer_requires` and others — the signs a text needs for a
  match.
-/

namespace Redaction

open LineText MarkedText RegexText

/-- Which characters belong to words (`\w`), and what happens to host names. -/
structure Alphabet where
  isWord : Char → Bool
  tables : UrlSplit.CaseTables

/-- Only ASCII matters. -/
def asciiAlphabet : Alphabet where
  isWord c := c.isAlphanum || c == '_'
  tables := ⟨List.map Char.toLower, id⟩

def anyCase (letters : String) : Pattern := .textCaseless letters

/-- `api[_-]?key`. -/
def apiKey : Pattern :=
  .seq (anyCase "api") (.seq (.optional (.one fun c => c == '_' || c == '-')) (anyCase "key"))

/-- `\s*[:=]\s*`. -/
def separator : Pattern :=
  .seq (.many isSpace) (.seq (.one fun c => c == ':' || c == '=') (.many isSpace))

/-- `"[^"]*"`, for either quote. -/
def quoted (quote : Char) : Pattern :=
  .seq (.one (· == quote)) (.seq (.many (· != quote)) (.one (· == quote)))

def assignmentOf (words : Pattern) : Pattern :=
  .seq .boundary (.seq (.group 1 words) (.seq .boundary (.seq (.group 2 separator)
    (.oneOf [quoted '"', quoted '\'', .some fun c => !isSpace c && !",;&".toList.contains c]))))

def tokenChar (others : String) (c : Char) : Bool := c.isAlphanum || others.toList.contains c

def bearerPattern : Pattern :=
  .seq (.group 1 (.seq (anyCase "authorization")
      (.seq separator (.seq (anyCase "bearer") (.some isSpace)))))
    (.seq (.some (caseless (tokenChar "._~+/-"))) (.many (· == '=')))

/-- Three parts, the first of which begins with `eyJ`. -/
def jwtPattern : Pattern :=
  let part := Pattern.some (tokenChar "_-")
  .seq .boundary (.seq (.text "eyJ") (.seq part (.seq (.one (· == '.'))
    (.seq part (.seq (.one (· == '.')) (.seq part .boundary))))))

def urlPattern : Pattern :=
  .seq (.text "http") (.seq (.optional (.one (· == 's'))) (.seq (.text "://")
    (.some fun c => !isSpace c && !"<>\"".toList.contains c)))

def redactedMarker : List Char := "[REDACTED]".toList

/-- `\1[REDACTED]`, or with more groups in front. -/
def keepGroups (indices : List ℕ) (found : Place) (_ : List Char) : List Char :=
  indices.flatMap found.matched ++ redactedMarker

/-! ### What they keep -/

section Kept

variable {isWord : Char → Bool} {word : List Char} {m : Place × List Char} {text : List Char}

/-- Of a bearer header the token is exchanged for the marker. -/
theorem bearer_spliced (hmarker : Foreign word redactedMarker)
    (h : m ∈ matchesOf isWord bearerPattern text) :
    Spliced word m.2 (keepGroups [1] m.1 m.2) := by
  obtain ⟨s, hrun, hpiece, hgroups⟩ := mem_matchesWithin h
  obtain ⟨header, hheader, htoken, huntil⟩ := run_seq hrun
  have hkept : m.1.matched 1 = s.until header := by
    rw [Place.matched, run_groupless (by decide) htoken, run_group (by decide) hheader]
    rfl
  rw [hpiece, huntil, keepGroups, List.flatMap_singleton, hkept]
  exact (Spliced.marked _ hmarker).behind _

/-- Of an assignment the name and the sign are kept. -/
theorem assignment_spliced {words : Pattern} (hwords : words.groupless = true)
    (hmarker : Foreign word redactedMarker)
    (h : m ∈ matchesOf isWord (assignmentOf words) text) :
    Spliced word m.2 (keepGroups [1, 2] m.1 m.2) := by
  obtain ⟨s, hrun, hpiece, hgroups⟩ := mem_matchesWithin h
  obtain ⟨begun, hbegun, hnamed, -⟩ := run_seq hrun
  obtain ⟨name, hname, hended, huntil⟩ := run_seq hnamed
  obtain ⟨ended, hboundary, hsigned, -⟩ := run_seq hended
  obtain ⟨sign, hsign, hvalue, hbehind⟩ := run_seq hsigned
  rw [run_boundary hbegun] at hname huntil
  rw [run_boundary hboundary] at hsign hbehind
  have hmatched : m.1.groups = [(2, name.until sign), (1, s.until name)] := by
    rw [run_groupless (by decide) hvalue, run_group (by decide) hsign, run_group hwords hname,
      hgroups]
  have hkept : [1, 2].flatMap m.1.matched = s.until name ++ name.until sign := by
    rw [List.flatMap_cons, List.flatMap_singleton, Place.matched, Place.matched, hmatched]
    rfl
  rw [hpiece, huntil, hbehind, keepGroups, hkept, ← List.append_assoc]
  exact (Spliced.marked _ hmarker).behind _

end Kept

/-! ### What they look for -/

def urlChar (c : Char) : Bool := !isSpace c && !"<>\"".toList.contains c

/-- A URL is a scheme and at least one character more, up to a blank or a bracket. -/
theorem url_run {isWord : Char → Bool} {s t : Place} (h : t ∈ run isWord urlPattern s) :
    ∃ scheme ∈ UrlSplit.webSchemes, ∃ tail, s.until t = scheme ++ "://".toList ++ tail ∧
      tail ≠ [] ∧ ∀ c ∈ tail, urlChar c = true := by
  obtain ⟨http, hhttp, hafter, huntil⟩ := run_seq h
  obtain ⟨secure, hsecure, hsigned, hbehind⟩ := run_seq hafter
  obtain ⟨sign, hsign, htail, hrest⟩ := run_seq hsigned
  have hurl : ∀ c ∈ sign.until t, urlChar c = true := (run_some htail).2
  rw [huntil, hbehind, hrest, run_text hhttp, run_text hsign]
  rcases run_optional hsecure with hs | hs
  · obtain ⟨c, hc, heq⟩ := run_one hs
    rw [beq_iff_eq] at heq
    subst heq
    refine ⟨"https".toList, by decide, sign.until t, ?_, (run_some htail).1, hurl⟩
    rw [hc]
    rfl
  · refine ⟨"http".toList, by decide, sign.until t, ?_, (run_some htail).1, hurl⟩
    rw [hs, until_self]
    rfl

theorem url_match {isWord : Char → Bool} {text : List Char} {m : Place × List Char}
    (h : m ∈ matchesOf isWord urlPattern text) :
    ∃ scheme ∈ UrlSplit.webSchemes, ∃ tail, m.2 = scheme ++ "://".toList ++ tail ∧ tail ≠ [] ∧
      ∀ c ∈ tail, urlChar c = true := by
  obtain ⟨s, hrun, hpiece, -⟩ := mem_matchesWithin h
  rw [hpiece]
  exact url_run hrun

/-- No character of a URL is taken out where it is split. -/
theorem urlChar_kept {c : Char} (h : urlChar c = true) : "\t\r\n".toList.contains c = false := by
  have hblank : ∀ c ∈ "\t\r\n".toList, urlChar c = false := by decide
  rw [Bool.eq_false_iff]
  intro hcontains
  rw [hblank c (List.contains_iff_mem.mp hcontains)] at h
  cases h

/-- Where an address begins and only characters of URLs follow, all of them are matched. -/
theorem url_head {isWord : Char → Bool} (before : List Char) {tail : List Char} (hne : tail ≠ [])
    (htail : ∀ c ∈ tail, urlChar c = true) :
    ∃ found others, run isWord urlPattern ⟨before, "http://".toList ++ tail, []⟩ =
      found :: others ∧ found.rest = [] := by
  cases tail with
  | nil => exact absurd rfl hne
  | cons c tail =>
    have hc := htail c List.mem_cons_self
    have hhttp : run isWord (.text "http") ⟨before, "http://".toList ++ c :: tail, []⟩ =
        [⟨"http".toList.reverse ++ before, "://".toList ++ c :: tail, []⟩] := rfl
    have hsecure : run isWord (.optional (.one (· == 's')))
        ⟨"http".toList.reverse ++ before, "://".toList ++ c :: tail, []⟩ =
          [⟨"http".toList.reverse ++ before, "://".toList ++ c :: tail, []⟩] := rfl
    have hsign : run isWord (.text "://")
        ⟨"http".toList.reverse ++ before, "://".toList ++ c :: tail, []⟩ =
          [⟨"http://".toList.reverse ++ before, c :: tail, []⟩] := rfl
    have hone : run isWord (.one urlChar) ⟨"http://".toList.reverse ++ before, c :: tail, []⟩ =
        [⟨c :: ("http://".toList.reverse ++ before), tail, []⟩] := if_pos hc
    have hrun : run isWord urlPattern ⟨before, "http://".toList ++ c :: tail, []⟩ =
        run isWord (.many urlChar) ⟨c :: ("http://".toList.reverse ++ before), tail, []⟩ :=
      (run_seq_of_singleton hhttp).trans ((run_seq_of_singleton hsecure).trans
        ((run_seq_of_singleton hsign).trans (run_seq_of_singleton hone)))
    have hmany : ∃ found others, run isWord (.many urlChar)
        ⟨c :: ("http://".toList.reverse ++ before), tail, []⟩ = found :: others := by
      rw [run, List.range_succ, List.reverse_append, List.reverse_singleton, List.singleton_append,
        List.map_cons]
      exact ⟨_, _, rfl⟩
    obtain ⟨found, others, hfound⟩ := hmany
    refine ⟨found, others, hrun.trans hfound, ?_⟩
    rw [head_of_many hfound, List.dropWhile_eq_nil_iff]
    exact fun d hd => htail d (List.mem_cons_of_mem c hd)

/-! ### Signs without which nothing is found -/

theorem separator_requires : separator.Requires fun c => c = ':' ∨ c = '=' := by
  refine .inr (.inl fun c hc => ?_)
  rw [Bool.or_eq_true, beq_iff_eq, beq_iff_eq] at hc
  exact hc

theorem bearer_requires : bearerPattern.Requires fun c => c = ':' ∨ c = '=' :=
  .inl (.inr (.inl separator_requires))

theorem assignment_requires (words : Pattern) :
    (assignmentOf words).Requires fun c => c = ':' ∨ c = '=' :=
  .inr (.inr (.inr (.inl separator_requires)))

theorem jwt_requires : jwtPattern.Requires fun c => c = '.' :=
  .inr (.inr (.inr (.inl fun _ hc => beq_iff_eq.mp hc)))

theorem url_requires : urlPattern.Requires fun c => c = ':' :=
  .inr (.inr (.inl (.inl fun _ hc => beq_iff_eq.mp hc)))

end Redaction

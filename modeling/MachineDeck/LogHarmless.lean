import MachineDeck.LogRedaction
import MachineDeck.UrlEncoding

/-!
# Log messages without secrets

What `LogRedactionService.redact` makes of a message in which no secret shows.

* `QueryKept`, `UrlKept` — URLs that need no rewriting;
* `redactUrl_eq_iff` — all others are rewritten;
* `beforeUrls_harmless` — no pass but the last one finds anything;
* `harmless_kept_iff` — the message is kept just where each of its URLs is.
-/

namespace MachineDeck.Logs

open MarkedText Redaction RegexText UrlQuery UrlSplit
open scoped LineText

/-! ### One URL -/

/-- A query that `urlencode` writes, in which the values of secret names are replaced already. -/
def QueryKept (alphabet : Alphabet) (query : List Char) : Prop :=
  query ≠ [] ∧ ∃ pairs, query = urlencode pairs ∧
    ∀ pair ∈ pairs, search alphabet.isWord sensitiveSecretName pair.1 = true →
      pair.2 = redactedMarker

/-- A URL that is refused, or one with such a query if it has a sign for one, and something behind
its sign for a fragment. -/
def UrlKept (alphabet : Alphabet) (raw : List Char) : Prop :=
  urlsplit alphabet.tables raw = none ∨
    ((partition '#' raw).2 ≠ some [] ∧
      ∀ query, (partition '?' (partition '#' raw).1).2 = some query → QueryKept alphabet query)

theorem quotedChar_urlChar {c : Char} (h : quotedChar c = true) : urlChar c = true := by
  have hascii : ∀ n < 128, quotedChar (Char.ofNat n) = true → urlChar (Char.ofNat n) = true := by
    decide +kernel
  have hc := hascii c.toNat (quotedChar_ascii h)
  rw [Char.ofNat_toNat] at hc
  exact hc h

/-- What `urlencode` writes. -/
theorem urlencode_chars {pairs : List (List Char × List Char)} {c : Char}
    (h : c ∈ urlencode pairs) : quotedChar c = true ∨ c = '=' ∨ c = '&' := by
  have hpair {pair : List Char × List Char} (h : c ∈ writePair pair) :
      quotedChar c = true ∨ c = '=' ∨ c = '&' := by
    rw [writePair, List.mem_append, List.mem_cons] at h
    rcases h with h | h | h
    · exact .inl (quotePlus_quoted h)
    · exact .inr (.inl h)
    · exact .inl (quotePlus_quoted h)
  induction pairs with
  | nil => cases h
  | cons pair pairs ih =>
    cases pairs with
    | nil =>
      rw [urlencode_singleton] at h
      exact hpair h
    | cons pair' pairs =>
      rw [urlencode_cons, List.mem_append, List.mem_cons] at h
      rcases h with h | h | h
      · exact hpair h
      · exact .inr (.inr h)
      · exact ih h

/-- The pieces of a URL, and what becomes of them. -/
theorem redactUrl_pieces {alphabet : Alphabet} {scheme : List Char} (hscheme : scheme ∈ webSchemes)
    {tail : List Char} (htail : ∀ c ∈ tail, urlChar c = true)
    (hsplit : urlsplit alphabet.tables (scheme ++ "://".toList ++ tail) ≠ none) :
    ∃ base query fragment,
      scheme ++ "://".toList ++ tail = base ++ signed '?' query ++ signed '#' fragment ∧
      '?' ∉ base ∧ '#' ∉ base ++ signed '?' query ∧
      redactUrl alphabet (scheme ++ "://".toList ++ tail) =
        base ++ signed '?' (filled (urlencode (redactQuery alphabet (parseQsl (query.getD []))))) ++
          signed '#' (filled (fragment.getD [])) := by
  obtain ⟨netloc, path, query, fragment, hraw, hpath, hquery, hfragment, hparts⟩ :=
    urlsplit_pieces hscheme fun c hc => urlChar_kept (htail c hc)
  rw [hparts, ite_ne_right_iff] at hsplit
  refine ⟨scheme ++ "://".toList ++ netloc ++ path, query, fragment, hraw, hquery, hfragment, ?_⟩
  rw [redactUrl, hparts, if_pos hsplit.1]
  exact urlunsplit_web hscheme netloc hpath _ _

theorem filled_getD (behind : Option (List Char)) :
    filled (behind.getD []) = behind ↔ behind ≠ some [] := by
  cases behind with
  | none => simp [filled]
  | some behind =>
    by_cases hbehind : behind = []
    · simp [filled, hbehind]
    · simp [filled, hbehind]

/-- A query is written as it was just where it is kept. -/
theorem query_eq_iff {alphabet : Alphabet} (query : Option (List Char)) :
    filled (urlencode (redactQuery alphabet (parseQsl (query.getD [])))) = query ↔
      ∀ given, query = some given → QueryKept alphabet given := by
  cases query with
  | none => exact ⟨fun _ given h => absurd h (by simp), fun _ => rfl⟩
  | some given =>
    have hgiven : (∀ given', some given = some given' → QueryKept alphabet given') ↔
        QueryKept alphabet given :=
      ⟨fun h => h given rfl, fun h given' hsame => Option.some.inj hsame ▸ h⟩
    rw [hgiven, Option.getD_some]
    constructor
    · intro hsame
      rw [filled] at hsame
      split_ifs at hsame with hempty
      have hwritten := Option.some.inj hsame
      refine ⟨hwritten ▸ hempty, redactQuery alphabet (parseQsl given), hwritten.symm, ?_⟩
      intro pair hpair hname
      obtain ⟨pair', -, rfl⟩ := List.mem_map.mp hpair
      exact if_pos hname
    · rintro ⟨hempty, pairs, rfl, hreplaced⟩
      have hkept : redactQuery alphabet pairs = pairs := by
        have hpairs : redactQuery alphabet pairs = pairs.map id := by
          apply List.map_congr_left
          intro pair hpair
          split_ifs with hname
          · rw [← hreplaced pair hpair hname]
            rfl
          · rfl
        rw [hpairs, List.map_id]
      rw [parseQsl_urlencode, hkept, filled, if_neg hempty]

theorem hash_not_written (pairs : List (List Char × List Char)) :
    '#' ∉ signed '?' (filled (urlencode pairs)) := by
  rw [filled]
  split_ifs
  · exact List.not_mem_nil
  · intro hmem
    rcases List.mem_cons.mp hmem with h | h
    · cases h
    · rcases urlencode_chars h with h | h | h
      · cases h
      · cases h
      · cases h

/-- **A URL is left as it is just where it needs no rewriting.** -/
theorem redactUrl_eq_iff {alphabet : Alphabet} {scheme : List Char} (hscheme : scheme ∈ webSchemes)
    {tail : List Char} (htail : ∀ c ∈ tail, urlChar c = true) :
    redactUrl alphabet (scheme ++ "://".toList ++ tail) = scheme ++ "://".toList ++ tail ↔
      UrlKept alphabet (scheme ++ "://".toList ++ tail) := by
  by_cases hsplit : urlsplit alphabet.tables (scheme ++ "://".toList ++ tail) = none
  · have hkept : redactUrl alphabet (scheme ++ "://".toList ++ tail) =
        scheme ++ "://".toList ++ tail := by rw [redactUrl, hsplit]
    exact ⟨fun _ => .inl hsplit, fun _ => hkept⟩
  · obtain ⟨base, query, fragment, hraw, hquery, hfragment, hwritten⟩ :=
      redactUrl_pieces hscheme htail hsplit
    rw [UrlKept, or_iff_right hsplit, hwritten, hraw, partition_signed hfragment]
    simp only
    rw [partition_signed hquery, ← query_eq_iff, ← filled_getD]
    constructor
    · intro hsame
      have hfront : '#' ∉ base ++
          signed '?' (filled (urlencode (redactQuery alphabet (parseQsl (query.getD []))))) := by
        rw [List.mem_append, not_or]
        exact ⟨fun hmem => hfragment (List.mem_append_left _ hmem), hash_not_written _⟩
      have hpartition := congrArg (partition '#') hsame
      rw [partition_signed hfront, partition_signed hfragment, Prod.mk.injEq] at hpartition
      have hinner := congrArg (partition '?') hpartition.1
      rw [partition_signed hquery, partition_signed hquery, Prod.mk.injEq] at hinner
      exact ⟨hpartition.2, hinner.2⟩
    · rintro ⟨hsameFragment, hsameQuery⟩
      rw [hsameFragment, hsameQuery]

/-! ### A whole message -/

section Message

variable {alphabet : Alphabet}

theorem web_chars {scheme : List Char} (hscheme : scheme ∈ webSchemes) {tail : List Char}
    (htail : ∀ c ∈ tail, urlChar c = true) :
    ∀ c ∈ scheme ++ "://".toList ++ tail, urlChar c = true := by
  have hweb : ∀ scheme ∈ webSchemes, ∀ c ∈ scheme ++ "://".toList, urlChar c = true := by decide
  intro c hc
  cases List.mem_append.mp hc with
  | inl h => exact hweb scheme hscheme c h
  | inr h => exact htail c h

/-- A URL runs up to a character that does not belong to URLs. -/
theorem url_exhausts (isWord : Char → Bool) : urlPattern.Exhausts isWord urlChar := by
  intro s found others h
  obtain ⟨http, -, _, hafter⟩ := head_of_seq h
  obtain ⟨secure, -, _, hsigned⟩ := head_of_seq hafter
  obtain ⟨sign, -, _, htail⟩ := head_of_seq hsigned
  obtain ⟨scheme, hscheme, tail, huntil, hne, hchars⟩ := url_run (h ▸ List.mem_cons_self)
  rw [huntil]
  refine ⟨List.append_ne_nil_of_right_ne_nil _ hne, web_chars hscheme hchars, ?_⟩
  exact head_of_some htail

/-- What stands in place of a URL consists of the characters of URLs. -/
theorem redactUrl_chars {scheme : List Char} (hscheme : scheme ∈ webSchemes)
    {tail : List Char} (htail : ∀ c ∈ tail, urlChar c = true) :
    ∀ c ∈ redactUrl alphabet (scheme ++ "://".toList ++ tail), urlChar c = true := by
  have hchars := web_chars hscheme htail
  by_cases hsplit : urlsplit alphabet.tables (scheme ++ "://".toList ++ tail) = none
  · rw [redactUrl, hsplit]
    exact hchars
  · obtain ⟨base, query, fragment, hraw, -, -, hwritten⟩ := redactUrl_pieces hscheme htail hsplit
    have hquery : ∀ c ∈ urlencode (redactQuery alphabet (parseQsl (query.getD []))),
        urlChar c = true := by
      intro c hc
      rcases urlencode_chars hc with h | rfl | rfl
      · exact quotedChar_urlChar h
      · decide
      · decide
    have hfragment : ∀ c ∈ fragment.getD [], urlChar c = true := by
      intro c hc
      apply hchars
      rw [hraw]
      cases fragment with
      | none => cases hc
      | some fragment => exact List.mem_append_right _ (List.mem_cons_of_mem '#' hc)
    have hsigned {sign : Char} (hsign : urlChar sign = true) {text : List Char}
        (htext : ∀ c ∈ text, urlChar c = true) :
        ∀ c ∈ signed sign (filled text), urlChar c = true := by
      intro c hc
      rw [filled] at hc
      split_ifs at hc
      · cases hc
      · rcases List.mem_cons.mp hc with rfl | hc
        · exact hsign
        · exact htext c hc
    intro c hc
    rw [hwritten] at hc
    rcases List.mem_append.mp hc with hc | hc
    · rcases List.mem_append.mp hc with hc | hc
      · apply hchars
        rw [hraw, List.append_assoc]
        exact List.mem_append_left _ hc
      · exact hsigned (by decide) hquery c hc
    · exact hsigned (by decide) hfragment c hc

/-- Where no name of a secret stands, only URLs are looked for. -/
theorem beforeUrls_harmless {secretValues : List (List Char)} {message : List Char}
    (hsecrets : ∀ value ∈ secretValues, ¬ value <:+: message)
    (hnames : search alphabet.isWord sensitiveSecretName message = false)
    (htokens : ¬ "eyJ".toList <:+: message) : beforeUrls alphabet secretValues message = message := by
  have hwords (s : Place) (h : run alphabet.isWord sensitiveSecretName s = []) :
      run alphabet.isWord (anyCase "authorization") s = [] := by
    simp only [sensitiveSecretName, Pattern.oneOf, run, List.append_eq_nil_iff] at h
    exact h.2.2.2.2.2
  have hbearer (s : Place) (h : run alphabet.isWord sensitiveSecretName s = []) :
      run alphabet.isWord bearerPattern s = [] := by
    rw [bearerPattern, run, run, run, hwords s h]
    rfl
  have hassignment (s : Place) (h : run alphabet.isWord sensitiveSecretName s = []) :
      run alphabet.isWord secretAssignment s = [] := by
    rw [secretAssignment, assignmentOf]
    apply run_boundary_seq
    rw [run, run, h]
    rfl
  have hjwt (s : Place) (h : run alphabet.isWord (.text "eyJ") s = []) :
      run alphabet.isWord jwtPattern s = [] := by
    rw [jwtPattern]
    apply run_boundary_seq
    rw [run, h]
    rfl
  have htoken : search alphabet.isWord (.text "eyJ") message = false := by
    rw [Bool.eq_false_iff]
    intro hfound
    obtain ⟨s, t, ht, hpiece⟩ := infix_of_search hfound
    rw [run_text ht] at hpiece
    exact htokens hpiece
  rw [beforeUrls, withoutSecrets_absent hsecrets, sub_unfound hbearer hnames,
    sub_unfound hassignment hnames, sub_unfound hjwt htoken]

end Message

/-- **A message in which no secret shows is kept** just where every URL in it is one that needs no
rewriting. -/
theorem harmless_kept_iff {alphabet : Alphabet} {manifest : ApplicationManifest}
    (service : LogRedactionService alphabet manifest) (message : String)
    (hsecrets : ∀ value ∈ service.secretValues, ¬ value <:+: message.toList)
    (hnames : search alphabet.isWord sensitiveSecretName message.toList = false)
    (htokens : ¬ "eyJ".toList <:+: message.toList) :
    service.redact message = message ↔
      ∀ m ∈ matchesOf alphabet.isWord urlPattern message.toList, UrlKept alphabet m.2 := by
  have htext : service.redact message = message ↔
      redactText alphabet service.secretValues message.toList = message.toList := by
    rw [LogRedactionService.redact]
    constructor
    · intro hsame
      have htexts := congrArg String.toList hsame
      rwa [String.toList_ofList] at htexts
    · intro hsame
      rw [hsame, String.ofList_toList]
  rw [htext, redactText, beforeUrls_harmless hsecrets hnames htokens,
    sub_eq_iff (url_exhausts alphabet.isWord)]
  · apply forall₂_congr
    intro m hm
    obtain ⟨scheme, hscheme, tail, hraw, -, htail⟩ := url_match hm
    rw [hraw]
    exact redactUrl_eq_iff hscheme htail
  · intro m hm
    obtain ⟨scheme, hscheme, tail, hraw, -, htail⟩ := url_match hm
    rw [hraw]
    exact redactUrl_chars hscheme htail

/-- A URL that is kept. -/
theorem harmless_kept_iff_page :
    (∀ value ∈ tokenService.secretValues, ¬ value <:+: "GET http://a/b?x=1".toList) ∧
      tokenService.redact "GET http://a/b?x=1" = "GET http://a/b?x=1" := by
  have habsent : ∀ value ∈ tokenService.secretValues,
      ¬ value <:+: "GET http://a/b?x=1".toList := by
    rw [tokenService_values]
    decide +kernel
  refine ⟨habsent, (harmless_kept_iff tokenService "GET http://a/b?x=1" habsent
    (by decide +kernel) (by decide +kernel)).mpr ?_⟩
  have hfound : (matchesOf asciiAlphabet.isWord urlPattern "GET http://a/b?x=1".toList).map Prod.snd =
      ["http://a/b?x=1".toList] := by decide +kernel
  intro m hm
  have hurl := List.mem_map_of_mem (f := Prod.snd) hm
  rw [hfound, List.mem_singleton] at hurl
  have hfragment : partition '#' "http://a/b?x=1".toList = ("http://a/b?x=1".toList, none) := by
    decide +kernel
  have hquery : partition '?' "http://a/b?x=1".toList = ("http://a/b".toList, some "x=1".toList) := by
    decide +kernel
  rw [hurl, UrlKept, hfragment, hquery]
  refine .inr ⟨by decide, fun query hsome => ?_⟩
  rw [← Option.some.inj hsome]
  refine ⟨by decide, [("x".toList, "1".toList)], by decide +kernel, ?_⟩
  decide +kernel

/-- The sign of an empty query is lost. -/
theorem harmless_url_changed :
    ¬ ∀ (message : String), (∀ value ∈ tokenService.secretValues, ¬ value <:+: message.toList) →
      search asciiAlphabet.isWord sensitiveSecretName message.toList = false →
      ¬ "eyJ".toList <:+: message.toList → tokenService.redact message = message := by
  intro hall
  have habsent : ∀ value ∈ tokenService.secretValues, ¬ value <:+: "http://a/?".toList := by
    rw [tokenService_values]
    decide +kernel
  have hsame := hall "http://a/?" habsent (by decide +kernel) (by decide +kernel)
  have hchanged : redactText asciiAlphabet tokenService.secretValues "http://a/?".toList =
      "http://a/".toList := by
    rw [tokenService_values]
    decide +kernel
  rw [LogRedactionService.redact, hchanged] at hsame
  revert hsame
  decide

end MachineDeck.Logs

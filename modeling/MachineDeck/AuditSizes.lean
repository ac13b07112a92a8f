import MachineDeck.AuditExposure
import MachineDeck.TextExchanges
import MachineDeck.UrlEncoding
import Mathlib.Tactic.IntervalCases

/-!
# The size of what is shown of the details

* `escapedSize`, `byteSize_jsonString` — the size of a text inside a document;
* `textExchanges` — what `redact_text` puts in place of what;
* `details_bounded_iff` — the details shown are within the limit just where the exchanges in the
  preview leave room;
* `long_query_exceeds` — a preview that is redacted once more becomes too long.
-/

namespace AuditRedaction

open JsonDump JsonText Redaction RegexText TextExchanges UrlQuery UrlSplit Utf8Text

/-! ### Texts inside documents -/

/-- The bytes that a character takes up in a string of a document. -/
def escapedSize (c : Char) : ℕ := byteSize (TomlText.writeChar c)

theorem byteSize_jsonString (text : List Char) :
    byteSize (TomlText.jsonString text) = weigh escapedSize text + 2 := by
  have hchars (text : List Char) :
      byteSize (text.flatMap TomlText.writeChar) = weigh escapedSize text := by
    induction text with
    | nil => rfl
    | cons c text ih => rw [List.flatMap_cons, byteSize_append, ih, weigh_cons, escapedSize]
  rw [TomlText.jsonString, byteSize_eq, weigh_cons, weigh_append, ← byteSize_eq, hchars]
  show 1 + (weigh escapedSize text + 1) = weigh escapedSize text + 2
  omega

theorem escapedSize_pos (c : Char) : 0 < escapedSize c := by
  have hpiece {text : List Char} (h : text ≠ []) : 0 < byteSize text := by
    cases text with
    | nil => exact absurd rfl h
    | cons d text =>
      rw [byteSize_eq, weigh_cons]
      exact Nat.add_pos_left d.utf8Size_pos _
  apply hpiece
  obtain ⟨d, text, hwritten, -⟩ := TomlText.writeChar_head c []
  intro hempty
  rw [hempty] at hwritten
  cases hwritten

theorem length_le_weigh (text : List Char) : text.length ≤ weigh escapedSize text := by
  induction text with
  | nil => exact Nat.le_refl 0
  | cons c text ih =>
    have hc := escapedSize_pos c
    rw [weigh_cons, List.length_cons]
    omega

/-! ### What redaction adds -/

/-- What `redact_text` puts in place of what, pass by pass. -/
def textExchanges (alphabet : Alphabet) (value : List Char) : List Exchange :=
  let text := value.take maxStringLength
  let bearer := substituted alphabet.isWord bearerPattern (keepGroups [1]) text
  let text := sub alphabet.isWord bearerPattern (keepGroups [1]) text
  let assigned := substituted alphabet.isWord assignment (keepGroups [1, 2]) text
  let text := sub alphabet.isWord assignment (keepGroups [1, 2]) text
  let tokens := substituted alphabet.isWord jwtPattern (fun _ _ => "[REDACTED_JWT]".toList) text
  let text := sub alphabet.isWord jwtPattern (fun _ _ => "[REDACTED_JWT]".toList) text
  let urls := substituted alphabet.isWord urlPattern (fun _ raw => redactUrl alphabet raw) text
  bearer ++ assigned ++ tokens ++ urls

theorem weigh_redactText (w : Char → ℕ) (alphabet : Alphabet) (value : List Char) :
    (weigh w (redactText alphabet value) : ℤ) =
      weigh w (value.take maxStringLength) + growth w (textExchanges alphabet value) := by
  rw [redactText, weigh_sub, weigh_sub, weigh_sub, weigh_sub, textExchanges]
  simp only [growth_append, add_assoc]

/-! ### Details that are cut -/

/-- What stands in place of details that are too long. -/
def truncatedDetails (size : ℕ) (preview : List Char) : Json :=
  .obj [("_truncated", .bool true), ("original_sanitized_size_bytes", .int size),
    ("preview", .str (String.ofList preview))]

theorem byteSize_truncatedDetails (decimalText : Decimal → List Char) (size : ℕ)
    (preview : List Char) :
    byteSize (dumps decimalText (truncatedDetails size preview)) =
      byteSize (dumps decimalText (truncatedDetails size [])) + weigh escapedSize preview := by
  have hstring := byteSize_jsonString
  simp only [byteSize_eq] at hstring
  simp only [truncatedDetails, dumps, dumpsMembers, String.toList_ofList, byteSize_eq, weigh_cons,
    weigh_append, hstring, weigh_nil]
  omega

/-- The encoded details. -/
def encodedDetails (platform : AuditPlatform) (details : Option (List (String × Json))) :
    List Char :=
  dumps platform.decimalText (sanitize platform.toAlphabet (.obj (details.getD [])) "" 0)

/-- The sanitized details are short, or their beginning is, with what redaction adds to it. -/
def DetailsFit (platform : AuditPlatform) (details : Option (List (String × Json))) : Prop :=
  let encoded := encodedDetails platform details
  let preview := takeBytes 4096 encoded
  byteSize encoded ≤ maxDetailsBytes ∨
    (byteSize (dumps platform.decimalText (truncatedDetails (byteSize encoded) [])) : ℤ) +
        weigh escapedSize preview +
        growth escapedSize (textExchanges platform.toAlphabet preview) ≤ maxDetailsBytes

theorem length_le_byteSize (text : List Char) : text.length ≤ byteSize text := by
  induction text with
  | nil => exact Nat.le_refl 0
  | cons c text ih =>
    have hc := c.utf8Size_pos
    rw [byteSize_eq, weigh_cons, ← byteSize_eq, List.length_cons]
    omega

/-- A query of so many secret names. -/
def secretNames (n : ℕ) : List Char := (List.replicate n "csrf&".toList).flatten

theorem length_secretNames (n : ℕ) : (secretNames n).length = n * 5 := by
  rw [secretNames, List.length_flatten, List.map_replicate, List.sum_replicate_nat]
  rfl

theorem mem_secretNames {n : ℕ} {c : Char} (h : c ∈ secretNames n) : c ∈ "csrf&".toList := by
  obtain ⟨piece, hpiece, hc⟩ := List.mem_flatten.mp h
  rwa [List.eq_of_mem_replicate hpiece] at hc

theorem secretNames_succ (n : ℕ) : secretNames (n + 1) = secretNames n ++ "csrf&".toList := by
  rw [secretNames, List.replicate_succ', List.flatten_append, List.flatten_singleton]
  rfl

theorem byteSize_secretNames (n : ℕ) : byteSize (secretNames n) = n * 5 := by
  induction n with
  | zero => rfl
  | succ n ih =>
    have hpiece : byteSize "csrf&".toList = 5 := by decide
    rw [secretNames_succ, byteSize_append, ih, hpiece]
    omega

theorem secretNames_written (n : ℕ) :
    (secretNames n).flatMap TomlText.writeChar = secretNames n := by
  induction n with
  | zero => rfl
  | succ n ih =>
    rw [secretNames_succ, List.flatMap_append, ih]
    rfl

/-- The pieces of the query. -/
theorem secretNames_pieces (n : ℕ) :
    secretNames n ++ ['c'] = ['&'].intercalate (List.replicate n "csrf".toList ++ [['c']]) := by
  induction n with
  | zero => rfl
  | succ n ih =>
    have hcons : secretNames (n + 1) = "csrf&".toList ++ secretNames n := by
      rw [secretNames, List.replicate_succ, List.flatten_cons]
      rfl
    rw [hcons, List.append_assoc, ih, List.replicate_succ]
    cases n with
    | zero => rfl
    | succ n => simp [List.replicate_succ, List.intercalate, List.intersperse]

theorem parseQsl_secretNames (n : ℕ) :
    parseQsl (secretNames n ++ ['c']) =
      List.replicate n ("csrf".toList, []) ++ [(['c'], [])] := by
  have hsplit : (secretNames n ++ ['c']).splitOn '&' =
      List.replicate n "csrf".toList ++ [['c']] := by
    rw [secretNames_pieces]
    apply List.splitOn_intercalate
    · intro piece hpiece
      rcases List.mem_append.mp hpiece with h | h
      · rw [List.eq_of_mem_replicate h]
        decide
      · rw [List.mem_singleton.mp h]
        decide
    · simp
  have hkept : (List.replicate n "csrf".toList ++ [['c']]).filter (· ≠ []) =
      List.replicate n "csrf".toList ++ [['c']] := by
    rw [List.filter_eq_self]
    intro piece hpiece
    rcases List.mem_append.mp hpiece with h | h
    · rw [List.eq_of_mem_replicate h]
      decide
    · rw [List.mem_singleton.mp h]
      decide
  rw [parseQsl, hsplit, hkept, List.map_append, List.map_replicate]
  congr 1

/-- Each name is written with a marker. -/
theorem length_urlencode_secret (n : ℕ) :
    (urlencode (List.replicate n ("csrf".toList, redactedMarker) ++ [(['c'], [])])).length =
      n * 20 + 2 := by
  have hpair : (writePair ("csrf".toList, redactedMarker)).length = 19 := by decide +kernel
  induction n with
  | zero => decide +kernel
  | succ n ih =>
    have hcons : urlencode (List.replicate (n + 1) ("csrf".toList, redactedMarker) ++
        [(['c'], [])]) = writePair ("csrf".toList, redactedMarker) ++ '&' ::
          urlencode (List.replicate n ("csrf".toList, redactedMarker) ++ [(['c'], [])]) := by
      cases n with
      | zero => rfl
      | succ n => exact urlencode_cons _ _ _
    rw [hcons, List.length_append, List.length_cons, ih, hpair]
    omega

/-- A URL with the query; the host name is what a line feed is written as. -/
def escapedUrl (n : ℕ) : List Char :=
  "http".toList ++ "://".toList ++ ("\\n".toList ++ '?' :: (secretNames n ++ ['c']))

theorem mem_query {n : ℕ} {c : Char} (h : c ∈ secretNames n ++ ['c']) : c ∈ "csrf&".toList := by
  rcases List.mem_append.mp h with h | h
  · exact mem_secretNames h
  · rw [List.mem_singleton.mp h]
    decide

theorem length_redactUrl_escaped (n : ℕ) :
    (redactUrl asciiAlphabet (escapedUrl n)).length = n * 20 + 12 := by
  have htail : ∀ c ∈ "\\n".toList ++ '?' :: (secretNames n ++ ['c']),
      "\t\r\n".toList.contains c = false := by
    have hfront : ∀ c ∈ "\\n?".toList, "\t\r\n".toList.contains c = false :=
      List.all_iff_forall_prop.mp (by decide)
    have hquery : ∀ c ∈ "csrf&".toList, "\t\r\n".toList.contains c = false :=
      List.all_iff_forall_prop.mp (by decide)
    intro c hc
    rcases List.mem_append.mp hc with h | h
    · exact hfront c (List.mem_append_left ['?'] h)
    · rcases List.mem_cons.mp h with rfl | h
      · exact hfront _ (by decide)
      · exact hquery c (mem_query h)
  have hcut : cutAt "/?#".toList.contains ("\\n".toList ++ '?' :: (secretNames n ++ ['c'])) =
      ("\\n".toList, '?' :: (secretNames n ++ ['c'])) :=
    cutAt_append (List.all_iff_forall_prop.mp (by decide)) (by decide) _
  have hhash : '#' ∉ '?' :: (secretNames n ++ ['c']) := by
    intro hmem
    rcases List.mem_cons.mp hmem with h | h
    · cases h
    · exact absurd (mem_query h) (by decide)
  have hfragment : partition '#' ('?' :: (secretNames n ++ ['c'])) =
      ('?' :: (secretNames n ++ ['c']), none) := by
    have hsigned := partition_signed hhash none
    rwa [UrlSplit.signed, List.append_nil] at hsigned
  have hquery : partition '?' ('?' :: (secretNames n ++ ['c'])) =
      ([], some (secretNames n ++ ['c'])) :=
    partition_append (List.not_mem_nil) _
  have hsplit : urlsplit asciiAlphabet.tables (escapedUrl n) =
      some ⟨"http".toList, "\\n".toList, [], secretNames n ++ ['c'], []⟩ := by
    rw [escapedUrl, urlsplit_web (by decide) htail, hcut]
    simp only [hfragment, hquery]
    rfl
  have hmarked : (List.replicate n ("csrf".toList, ([] : List Char)) ++ [(['c'], [])]).map
      (fun pair : List Char × List Char => (pair.1,
        if search asciiAlphabet.isWord sensitiveKey pair.1 then "[REDACTED]".toList else pair.2)) =
        List.replicate n ("csrf".toList, redactedMarker) ++ [(['c'], [])] := by
    have hsecret : search asciiAlphabet.isWord sensitiveKey "csrf".toList = true := by
      decide +kernel
    have hplain : search asciiAlphabet.isWord sensitiveKey ['c'] = false := by decide +kernel
    rw [List.map_append, List.map_replicate, List.map_singleton]
    simp only [hsecret, hplain]
    rfl
  have hlength := length_urlencode_secret n
  have hfilled : urlencode (List.replicate n ("csrf".toList, redactedMarker) ++ [(['c'], [])]) ≠
      [] := by
    intro hempty
    rw [hempty, List.length_nil] at hlength
    omega
  rw [redactUrl, hsplit]
  simp only [parseQsl_secretNames, hmarked]
  show (urlunsplit ⟨"http".toList, "\\n".toList, [], _, []⟩).length = _
  rw [urlunsplit_web (by decide) _ (.inl rfl), filled, if_neg hfilled]
  simp only [List.length_append, UrlSplit.signed, List.length_cons, hlength]
  show 4 + 3 + 2 + 0 + (n * 20 + 2 + 1) + 0 = n * 20 + 12
  omega

/-- What stands in front of the query in the details: a line feed ends the address. -/
def brokenFront : List Char := ['h', 't', 't', 'p', ':', '/', '/', '\n', '?']

/-- What stands in front of the query in the encoded details. -/
def previewFront : List Char :=
  ['\x7b', '"', '"', ':', '"', 'h', 't', 't', 'p', ':', '/', '/', '\\', 'n', '?']

theorem query_unsigned {n : ℕ} {c : Char} (h : c ∈ secretNames n ++ ['c']) :
    ¬ (c = ':' ∨ c = '=') ∧ ¬ c = '.' ∧ ¬ c = ':' := by
  have hquery : ∀ c ∈ "csrf&".toList, ¬ (c = ':' ∨ c = '=') ∧ ¬ c = '.' ∧ ¬ c = ':' :=
    List.all_iff_forall_prop.mp (by decide)
  exact hquery c (mem_query h)

/-- In the details nothing is found. -/
theorem redactText_broken {n : ℕ} (hn : (brokenFront ++ secretNames n).length ≤ maxStringLength) :
    redactText asciiAlphabet (brokenFront ++ secretNames n) = brokenFront ++ secretNames n := by
  have hrest {c : Char} (h : c ∈ secretNames n) := query_unsigned (List.mem_append_left ['c'] h)
  have hbearer : ∀ i < brokenFront.length, run asciiAlphabet.isWord bearerPattern
      ⟨(brokenFront.take i).reverse, brokenFront.drop i ++ secretNames n, []⟩ = [] := by
    intro i hi
    change i < 9 at hi
    interval_cases i <;> rfl
  have hassignment : ∀ i < brokenFront.length, run asciiAlphabet.isWord assignment
      ⟨(brokenFront.take i).reverse, brokenFront.drop i ++ secretNames n, []⟩ = [] := by
    intro i hi
    change i < 9 at hi
    interval_cases i <;> rfl
  have hurl : ∀ i < brokenFront.length, run asciiAlphabet.isWord urlPattern
      ⟨(brokenFront.take i).reverse, brokenFront.drop i ++ secretNames n, []⟩ = [] := by
    intro i hi
    change i < 9 at hi
    interval_cases i <;> rfl
  have hjwt : ∀ c ∈ brokenFront ++ secretNames n, ¬ c = '.' := by
    intro c hc
    rcases List.mem_append.mp hc with h | h
    · have hfront : ∀ c ∈ brokenFront, ¬ c = '.' := List.all_iff_forall_prop.mp (by decide)
      exact hfront c h
    · exact (hrest h).2.1
  have hassign : assignment.Requires fun c => c = ':' ∨ c = '=' := assignment_requires _
  rw [redactText, List.take_of_length_le hn]
  rw [sub_front bearer_requires hbearer fun c h => (hrest h).1,
    sub_front hassign hassignment fun c h => (hrest h).1, sub_absent jwt_requires hjwt,
    sub_front url_requires hurl fun c h => (hrest h).2.2]

/-- In the preview the query belongs to the address. -/
theorem length_redactText_preview {n : ℕ}
    (hn : (previewFront ++ (secretNames n ++ ['c'])).length ≤ maxStringLength) :
    (redactText asciiAlphabet (previewFront ++ (secretNames n ++ ['c']))).length = n * 20 + 17 := by
  have hbearer : ∀ i < previewFront.length, run asciiAlphabet.isWord bearerPattern
      ⟨(previewFront.take i).reverse, previewFront.drop i ++ (secretNames n ++ ['c']), []⟩ = [] := by
    intro i hi
    change i < 15 at hi
    interval_cases i <;> rfl
  have hassignment : ∀ i < previewFront.length, run asciiAlphabet.isWord assignment
      ⟨(previewFront.take i).reverse, previewFront.drop i ++ (secretNames n ++ ['c']), []⟩ = [] := by
    intro i hi
    change i < 15 at hi
    interval_cases i <;> rfl
  have hjwt : ∀ c ∈ previewFront ++ (secretNames n ++ ['c']), ¬ c = '.' := by
    intro c hc
    rcases List.mem_append.mp hc with h | h
    · have hfront : ∀ c ∈ previewFront, ¬ c = '.' := List.all_iff_forall_prop.mp (by decide)
      exact hfront c h
    · exact (query_unsigned h).2.1
  have hassign : assignment.Requires fun c => c = ':' ∨ c = '=' := assignment_requires _
  rw [redactText, List.take_of_length_le hn]
  rw [sub_front bearer_requires hbearer fun c h => (query_unsigned h).1,
    sub_front hassign hassignment fun c h => (query_unsigned h).1, sub_absent jwt_requires hjwt]
  have hsplit : previewFront ++ (secretNames n ++ ['c']) = previewFront.take 5 ++ escapedUrl n := rfl
  have hplaces : ∀ i < (previewFront.take 5).length, run asciiAlphabet.isWord urlPattern
      ⟨((previewFront.take 5).take i).reverse ++ [],
        (previewFront.take 5).drop i ++ escapedUrl n, []⟩ = [] := by
    intro i hi
    change i < 5 at hi
    interval_cases i <;> rfl
  have hchars : ∀ c ∈ "\\n".toList ++ '?' :: (secretNames n ++ ['c']), urlChar c = true := by
    have hfront : ∀ c ∈ "\\n?".toList, urlChar c = true := List.all_iff_forall_prop.mp (by decide)
    have hquery : ∀ c ∈ "csrf&".toList, urlChar c = true := List.all_iff_forall_prop.mp (by decide)
    intro c hc
    rcases List.mem_append.mp hc with h | h
    · exact hfront c (List.mem_append_left ['?'] h)
    · rcases List.mem_cons.mp h with rfl | h
      · exact hfront _ (by decide)
      · exact hquery c (mem_query h)
  obtain ⟨found, others, hfound, hrest⟩ := @url_head asciiAlphabet.isWord
    ((previewFront.take 5).reverse ++ []) _ (by simp) hchars
  let replace : Place → List Char → List Char := fun _ raw => redactUrl asciiAlphabet raw
  have hwhole : subWithin asciiAlphabet.isWord urlPattern replace _ _ _ = replace found _ :=
    subWithin_whole (by simp) hfound hrest
  have hurl : "http://".toList ++ ("\\n".toList ++ '?' :: (secretNames n ++ ['c'])) =
      escapedUrl n := rfl
  rw [hurl] at hwhole
  have hlength : (previewFront.take 5).length = 5 := rfl
  rw [hsplit, sub, List.length_append, subWithin_front [] hplaces, hwhole, List.length_append,
    length_redactUrl_escaped, hlength]
  omega

/-- Four members with the same text. -/
def growingDetails (n : ℕ) : List (String × Json) :=
  ["", "a", "b", "c"].map fun name => (name, .str (String.ofList (brokenFront ++ secretNames n)))

theorem sanitize_growing {n : ℕ} (hn : (brokenFront ++ secretNames n).length ≤ maxStringLength) :
    sanitize asciiAlphabet (.obj (growingDetails n)) "" 0 = .obj (growingDetails n) := by
  have htext (name : String) (h : redactedName asciiAlphabet name = none) :
      sanitize asciiAlphabet (.str (String.ofList (brokenFront ++ secretNames n))) name 1 =
        .str (String.ofList (brokenFront ++ secretNames n)) := by
    rw [sanitize, h]
    show Json.str (String.ofList (redactText asciiAlphabet
      (String.ofList (brokenFront ++ secretNames n)).toList)) = _
    rw [String.toList_ofList, redactText_broken hn]
  rw [sanitize_obj redactedName_empty (by decide)]
  have hassigned : assignments asciiAlphabet (growingDetails n) 1 = growingDetails n := by
    have hnames : shortName "" = "" ∧ shortName "a" = "a" ∧ shortName "b" = "b" ∧
        shortName "c" = "c" := by decide
    obtain ⟨hempty, ha, hb, hc⟩ := hnames
    show [(shortName "", sanitize asciiAlphabet _ (shortName "") 1),
      (shortName "a", sanitize asciiAlphabet _ (shortName "a") 1),
      (shortName "b", sanitize asciiAlphabet _ (shortName "b") 1),
      (shortName "c", sanitize asciiAlphabet _ (shortName "c") 1)] = [_, _, _, _]
    rw [hempty, ha, hb, hc, htext "" rfl, htext "a" rfl, htext "b" rfl, htext "c" rfl]
  rw [hassigned]
  rfl

theorem jsonString_broken (n : ℕ) :
    TomlText.jsonString (brokenFront ++ secretNames n) =
      '"' :: (brokenFront.flatMap TomlText.writeChar ++ secretNames n ++ ['"']) := by
  rw [TomlText.jsonString, List.flatMap_append, secretNames_written]

theorem dumps_growing (n : ℕ) :
    ∃ more, dumps asciiPlatform.decimalText (.obj (growingDetails n)) =
      previewFront ++ (secretNames n ++ more) := by
  simp only [growingDetails, List.map_cons, List.map_nil, dumps, dumpsMembers,
    String.toList_ofList, jsonString_broken, List.append_assoc, List.cons_append]
  exact ⟨_, rfl⟩

theorem byteSize_growing (n : ℕ) :
    byteSize (dumps asciiPlatform.decimalText (.obj (growingDetails n))) = 4 * (n * 5) + 68 := by
  have htext : byteSize (TomlText.jsonString (brokenFront ++ secretNames n)) = n * 5 + 12 := by
    have hfront : byteSize (brokenFront.flatMap TomlText.writeChar) = 10 := by decide
    have hquote : byteSize ['"'] = 1 := by decide
    rw [jsonString_broken, ← List.singleton_append, byteSize_append, byteSize_append,
      byteSize_append, hfront, hquote, byteSize_secretNames]
    omega
  have hnames : weigh Char.utf8Size (TomlText.jsonString "".toList) = 2 ∧
      weigh Char.utf8Size (TomlText.jsonString "a".toList) = 3 ∧
      weigh Char.utf8Size (TomlText.jsonString "b".toList) = 3 ∧
      weigh Char.utf8Size (TomlText.jsonString "c".toList) = 3 := by decide
  have hsigns : '\x7b'.utf8Size = 1 ∧ ':'.utf8Size = 1 ∧ ','.utf8Size = 1 ∧
      '\x7d'.utf8Size = 1 := by decide
  obtain ⟨hempty, ha, hb, hc⟩ := hnames
  obtain ⟨hopen, hcolon, hcomma, hclose⟩ := hsigns
  rw [byteSize_eq] at htext ⊢
  simp only [growingDetails, List.map_cons, List.map_nil, dumps, dumpsMembers,
    String.toList_ofList, weigh_cons, weigh_append, weigh_nil, htext, hempty, ha, hb, hc, hopen,
    hcolon, hcomma, hclose]
  omega

end AuditRedaction

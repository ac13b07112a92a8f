import MachineDeck.ConfigDocument
import MachineDeck.FallbackReader

/-!
# Scanning a rendered configuration

What the line scanner finds in a file that `render_config` wrote.  Strings are written with the
line boundaries beyond ASCII as they are, so one line of the file may be several lines of the
scanner.

* `classify_setting` — the line of a setting, up to its first line boundary;
* `scan_text`, `scan_texts`, `scan_broken` — a setting that counts, and one that is broken;
* `scan_others` — settings that do not count leave the pieces behind their line boundaries;
* `scan_rendered`, `scan_rendered_broken` — the whole file.
-/

namespace MachineDeck.Access

open JsonText (Json)
open LineText
open TomlText (BareKey Toml jsonArray jsonString keyChar unlines)

/-! ### Line boundaries -/

/-- A line, as the scanner has it. -/
def scanned (line : List Char) : List (List Char) := (segments line).1 :: (segments line).2

theorem splitlines_unlines {lines : List (List Char)} (h : ∀ line ∈ lines, '\r' ∉ line) :
    splitlinesFrom [] (unlines lines) = lines.flatMap scanned := by
  induction lines with
  | nil => rfl
  | cons line lines ih =>
    have hrest := ih fun l hl => h l (List.mem_cons_of_mem line hl)
    show splitlinesFrom [] (line ++ ['\n'] ++ unlines lines) = _
    rw [List.append_assoc, List.singleton_append,
      splitlinesFrom_segments [] line _ (h line List.mem_cons_self), hrest]
    rfl

/-- The line boundaries that JSON writes as they are. -/
def rawBoundary (c : Char) : Bool := ['\u0085', '\u2028', '\u2029'].contains c

def Unbroken (values : List String) : Prop :=
  ∀ value ∈ values, ∀ c ∈ value.toList, rawBoundary c = false

instance (values : List String) : Decidable (Unbroken values) :=
  inferInstanceAs (Decidable (∀ value ∈ values, ∀ c ∈ value.toList, rawBoundary c = false))

theorem rawBoundary_of_plain {c : Char} (hc : 32 ≤ c.toNat) : lineBoundary c = rawBoundary c := by
  have hcontrol : ∀ d ∈ ['\n', '\r', '\x0b', '\x0c', '\x1c', '\x1d', '\x1e'], d.toNat < 32 := by
    decide
  have hsame : c ∈ lineBoundaries ↔ c ∈ ['\u0085', '\u2028', '\u2029'] := by
    show c ∈ ['\n', '\r', '\x0b', '\x0c', '\x1c', '\x1d', '\x1e'] ++ ['\u0085', '\u2028', '\u2029'] ↔ _
    rw [List.mem_append]
    exact or_iff_right fun hmem => absurd (hcontrol c hmem) (by omega)
  rw [Bool.eq_iff_iff, lineBoundary, rawBoundary, List.contains_iff_mem, List.contains_iff_mem, hsame]

/-- What is written for a character has a boundary where the character is one that is not escaped. -/
theorem mem_writeChar_boundary {c d : Char} (hd : rawBoundary d = true) :
    d ∈ TomlText.writeChar c ↔ d = c := by
  have hplain : ∀ e ∈ ['\u0085', '\u2028', '\u2029'], TomlText.writeChar e = [e] := by decide
  have hraw := List.contains_iff_mem.mp hd
  constructor
  · intro hmem
    unfold TomlText.writeChar at hmem
    have hnot : ∀ e ∈ ['\u0085', '\u2028', '\u2029'], 128 ≤ e.toNat := by decide
    have hlarge := hnot d hraw
    cases hshort : JsonText.shortEscape c with
    | some e =>
      have he : e.toNat < 128 := by
        unfold JsonText.shortEscape at hshort
        split at hshort <;> cases hshort <;> decide
      rw [hshort] at hmem
      rcases List.mem_cons.mp hmem with rfl | hmem
      · exact absurd hlarge (by decide)
      · rw [List.mem_singleton.mp hmem] at hlarge
        omega
    | none =>
      rw [hshort] at hmem
      simp only at hmem
      split_ifs at hmem with hcontrol
      · have hhex : ∀ n < 16, (HexDigits.hexDigit n).toNat < 128 := by decide
        simp only [JsonText.unitEscape, JsonText.hexUnit, List.mem_cons, List.not_mem_nil,
          or_false] at hmem
        rcases hmem with rfl | rfl | rfl | rfl | rfl | rfl
        · exact absurd hlarge (by decide)
        · exact absurd hlarge (by decide)
        all_goals exact absurd hlarge (Nat.not_le.mpr (hhex _ (Nat.mod_lt _ (by decide))))
      · exact List.mem_singleton.mp hmem
  · rintro rfl
    rw [hplain d hraw]
    exact List.mem_singleton_self d

theorem mem_jsonString_boundary {s : List Char} {d : Char} (hd : rawBoundary d = true) :
    d ∈ jsonString s ↔ d ∈ s := by
  have hquote : d ≠ '"' := by
    rintro rfl
    exact absurd hd (by decide)
  simp only [jsonString, List.mem_cons, List.mem_append, List.mem_flatMap, List.not_mem_nil,
    or_false, hquote, false_or, mem_writeChar_boundary hd, exists_eq_right']

theorem mem_jsonArray_boundary {items : List (List Char)} {d : Char} (hd : rawBoundary d = true) :
    d ∈ jsonArray items ↔ ∃ s ∈ items, d ∈ s := by
  have hfixed : d ∉ "[], ".toList := by
    have hnone : ∀ e ∈ "[], ".toList, rawBoundary e = false := by decide
    intro hmem
    rw [hnone d hmem] at hd
    cases hd
  have hitems : d ∈ TomlText.jsonItems items ↔ ∃ s ∈ items, d ∈ s := by
    constructor
    · intro hmem
      rcases mem_intercalate_list hmem with hmem | ⟨piece, hpiece, hmem⟩
      · exact absurd hmem fun h => hfixed (List.mem_cons_of_mem _ (List.mem_cons_of_mem _ h))
      · obtain ⟨s, hs, rfl⟩ := List.mem_map.mp hpiece
        exact ⟨s, hs, (mem_jsonString_boundary hd).mp hmem⟩
    · rintro ⟨s, hs, hmem⟩
      exact mem_intercalate_of_mem (List.mem_map_of_mem hs) ((mem_jsonString_boundary hd).mpr hmem)
  have hopen : d ≠ '[' := fun h => hfixed (h ▸ List.mem_cons_self)
  have hclose : d ≠ ']' := fun h => hfixed (h ▸ List.mem_cons_of_mem _ List.mem_cons_self)
  simp only [jsonArray, List.mem_cons, List.mem_append, List.not_mem_nil, or_false, hopen, hclose,
    false_or, hitems]

theorem unbroken_iff {values : List String} :
    Unbroken values ↔ ∀ c ∈ tomlStrings values, lineBoundary c = false := by
  constructor
  · intro h c hc
    rw [rawBoundary_of_plain (TomlText.jsonArray_plain hc)]
    by_contra hraw
    obtain ⟨s, hs, hmem⟩ := (mem_jsonArray_boundary (by simpa using hraw)).mp hc
    obtain ⟨value, hvalue, rfl⟩ := List.mem_map.mp hs
    exact hraw (h value hvalue c hmem)
  · intro h value hvalue c hc
    by_contra hraw
    have hmem := (mem_jsonArray_boundary (by simpa using hraw)).mpr
      ⟨value.toList, List.mem_map_of_mem hvalue, hc⟩
    rw [← rawBoundary_of_plain (TomlText.jsonArray_plain hmem), h c hmem] at hraw
    exact hraw rfl

/-! ### The line of a setting -/

/-- A name that a line may begin with. -/
def Plain (key : List Char) : Prop :=
  key ≠ [] ∧ ∀ c ∈ key, isSpace c = false ∧ lineBoundary c = false ∧ c ∉ ['=', '#', '[']

instance (key : List Char) : Decidable (Plain key) := inferInstanceAs (Decidable (_ ∧ _))

section Settings

variable {key : String} {value : List Char} {c : Char}

theorem scanned_setting (hkey : Plain key.toList) (value : List Char) :
    scanned (setting key value) = setting key (segments value).1 :: (segments value).2 := by
  have hequals : ∀ c ∈ " = ".toList, lineBoundary c = false := by decide
  have hfront : ∀ c ∈ key.toList ++ " = ".toList, lineBoundary c = false := by
    intro c hc
    rcases List.mem_append.mp hc with hc | hc
    · exact (hkey.2 c hc).2.1
    · exact hequals c hc
  rw [scanned, setting, segments_append hfront]
  rfl

theorem rdropWhile_ne_nil (hhead : value.head? = some c) (hc : isSpace c = false) :
    value.rdropWhile isSpace ≠ [] := by
  intro hnil
  have hall := List.rdropWhile_eq_nil_iff.mp hnil c (List.mem_of_head? hhead)
  rw [hc] at hall
  cases hall

theorem strip_key (hkey : Plain key.toList) : strip (key.toList ++ [' ']) = key.toList := by
  have hplain := stripBy_of_plain fun c hc => (hkey.2 c hc).1
  rw [strip, stripBy_append_blanks (by decide) key.toList, hplain]

theorem strip_value (hhead : value.head? = some c) (hc : isSpace c = false) :
    strip (' ' :: value.rdropWhile isSpace) = value.rdropWhile isSpace := by
  obtain ⟨rest, rfl⟩ := List.head?_eq_some_iff.mp hhead
  have hfirst : (c :: rest).dropWhile isSpace = c :: rest :=
    List.dropWhile_cons_of_neg (by simp [hc])
  have hstrip : stripBy isSpace (c :: rest) = (c :: rest).rdropWhile isSpace := by
    rw [stripBy_eq, hfirst]
  have hblank : [' '].dropWhile isSpace = [] := by decide
  rw [strip, ← List.singleton_append, stripBy_blank_append hblank, ← hstrip, stripBy_stripBy]

/-- A setting is an assignment of what its line has before the line boundary. -/
theorem classify_setting (hkey : Plain key.toList) (hhead : value.head? = some c)
    (hc : isSpace c = false) :
    classify (setting key value) = .pair key (String.ofList (value.rdropWhile isSpace)) := by
  obtain ⟨k, rest, hfirst⟩ := List.exists_cons_of_ne_nil hkey.1
  have hk := hkey.2 k (by rw [hfirst]; exact List.mem_cons_self)
  have hfront : (key.toList ++ " = ".toList).dropWhile isSpace = key.toList ++ " = ".toList := by
    rw [hfirst, List.cons_append]
    exact List.dropWhile_cons_of_neg (by simp [hk.1])
  have hline : strip (setting key value) =
      key.toList ++ " = ".toList ++ value.rdropWhile isSpace := by
    rw [strip, setting, stripBy_append (by rw [hfront, hfirst]; exact List.cons_ne_nil _ _),
      if_neg (rdropWhile_ne_nil hhead hc), hfront]
  have hparts : key.toList ++ " = ".toList ++ value.rdropWhile isSpace =
      (key.toList ++ [' ']) ++ '=' :: ' ' :: value.rdropWhile isSpace := by
    rw [List.append_assoc, List.append_assoc]
    rfl
  have hequals : '=' ∉ key.toList ++ [' '] := by
    intro hmem
    rcases List.mem_append.mp hmem with hmem | hmem
    · exact (hkey.2 _ hmem).2.2 (by decide)
    · exact absurd hmem (by decide)
  have hhash : k ≠ '#' := fun h => hk.2.2 (by rw [h]; decide)
  have hbracket : k ≠ '[' := fun h => hk.2.2 (by rw [h]; decide)
  have hstart : (key.toList ++ [' '] ++ '=' :: ' ' :: value.rdropWhile isSpace).head? = some k := by
    rw [hfirst]
    rfl
  have hne : key.toList ++ [' '] ++ '=' :: ' ' :: value.rdropWhile isSpace ≠ [] := by
    intro hnil
    rw [hnil] at hstart
    cases hstart
  simp only [classify, hline, hparts, hstart, hne, Option.some.injEq, hhash, hbracket,
    false_or, false_and, if_false, partitionChars_append _ _ hequals, strip_key hkey,
    strip_value hhead hc, String.ofList_toList]

end Settings

/-! ### Scanning settings -/

section Scanning

variable {limit : ℕ} {seen : Scan} {table key : String} {value : List Char}
  {values : List String} {c : Char} {earlier : Assigned}

theorem segments_head (hhead : value.head? = some c) (hc : lineBoundary c = false) :
    (segments value).1.head? = some c := by
  obtain ⟨rest, rfl⟩ := List.head?_eq_some_iff.mp hhead
  rw [segments_inner hc]
  rfl

/-- A setting that does not count leaves what is behind its line boundaries. -/
theorem scan_other (hkey : Plain key.toList) (hname : key ∉ settingNames)
    (hhead : ∃ c ∈ ['"', '['], value.head? = some c) :
    scan limit seen (scanned (setting key value)) = scan limit seen (segments value).2 := by
  have hopening : ∀ c ∈ ['"', '['], isSpace c = false ∧ lineBoundary c = false := by decide
  obtain ⟨c, hmem, hhead⟩ := hhead
  obtain ⟨hspace, hboundary⟩ := hopening c hmem
  have hline := classify_setting hkey (segments_head hhead hboundary) hspace
  rw [scanned_setting hkey]
  show (scanLine limit seen _).bind _ = _
  rw [scanLine_other hline hname]
  rfl

/-- What the line boundaries in the values of settings leave. -/
def strayPieces (settings : List (String × List Char)) : List (List Char) :=
  settings.flatMap fun s => (segments s.2).2

/-- A setting that does not count. -/
def Other (s : String × List Char) : Prop :=
  Plain s.1.toList ∧ s.1 ∉ settingNames ∧ ∃ c ∈ ['"', '['], s.2.head? = some c

theorem other_text (hkey : Plain key.toList) (hname : key ∉ settingNames) (value : String) :
    Other (key, tomlString value) := ⟨hkey, hname, '"', by decide, rfl⟩

theorem other_texts (hkey : Plain key.toList) (hname : key ∉ settingNames) (values : List String) :
    Other (key, tomlStrings values) := ⟨hkey, hname, '[', by decide, rfl⟩

theorem scan_others {settings : List (String × List Char)} (h : ∀ s ∈ settings, Other s) :
    scan limit seen ((settings.map fun s => setting s.1 s.2).flatMap scanned) =
      scan limit seen (strayPieces settings) := by
  induction settings generalizing seen with
  | nil => rfl
  | cons s settings ih =>
    obtain ⟨hkey, hname, hhead⟩ := h s List.mem_cons_self
    rw [List.map_cons, List.flatMap_cons, scan_append, scan_other hkey hname hhead, strayPieces,
      List.flatMap_cons, scan_append]
    congr 1
    funext found
    exact ih fun s' hs' => h s' (List.mem_cons_of_mem s hs')

theorem rdropWhile_closed (front : List Char) (hc : isSpace c = false) :
    (front ++ [c]).rdropWhile isSpace = front ++ [c] :=
  List.rdropWhile_concat_neg _ _ _ (by simp [hc])

/-- A text that counts. -/
theorem scan_text {value : String} (hkey : Plain key.toList)
    (hsection : table ∈ settingSections) (hname : key ∈ settingNames)
    (hvalue : ∀ c ∈ value.toList, rawBoundary c = false) :
    scan limit ⟨table, earlier⟩ (scanned (setting key (tomlString value))) =
      .ok ⟨table, ((table, key), .str value) :: earlier⟩ := by
  have hplain : ∀ c ∈ tomlString value, lineBoundary c = false := by
    intro c hc
    rw [rawBoundary_of_plain (TomlText.jsonString_plain hc)]
    by_contra hraw
    exact hraw (hvalue c ((mem_jsonString_boundary (by simpa using hraw)).mp hc))
  have hend : (tomlString value).rdropWhile isSpace = tomlString value :=
    rdropWhile_closed ('"' :: value.toList.flatMap TomlText.writeChar) (by decide)
  have hline : classify (setting key (tomlString value)) =
      .pair key (String.ofList (tomlString value)) := by
    rw [classify_setting hkey (c := '"') rfl (by decide), hend]
  rw [scanned_setting hkey, segments_plain hplain]
  show (scanLine limit ⟨table, earlier⟩ _).bind _ = _
  rw [scanLine_pair hline hsection hname, tomlString, TomlText.loads_jsonString, String.ofList_toList]
  rfl

/-- Texts that count, and are not broken. -/
theorem scan_texts (hlimit : 1 ≤ limit) (hkey : Plain key.toList)
    (hsection : table ∈ settingSections) (hname : key ∈ settingNames)
    (hvalues : Unbroken values) :
    scan limit ⟨table, earlier⟩ (scanned (setting key (tomlStrings values))) =
      .ok ⟨table, ((table, key), strings values) :: earlier⟩ := by
  have hend : (tomlStrings values).rdropWhile isSpace = tomlStrings values :=
    rdropWhile_closed ('[' :: TomlText.jsonItems (values.map String.toList)) (by decide)
  have hline : classify (setting key (tomlStrings values)) =
      .pair key (String.ofList (tomlStrings values)) := by
    rw [classify_setting hkey (c := '[') rfl (by decide), hend]
  have htexts : pythonValue (.arr ((values.map String.toList).map fun s => .str (String.ofList s))) =
      strings values := by
    have hofList : (fun s => Toml.str (String.ofList s)) ∘ String.toList = Toml.str :=
      funext fun value => congrArg Toml.str String.ofList_toList
    rw [pythonValue, pythonValues_str, List.map_map, hofList]
    rfl
  rw [scanned_setting hkey, segments_plain (unbroken_iff.mp hvalues)]
  show (scanLine limit ⟨table, earlier⟩ _).bind _ = _
  rw [scanLine_pair hline hsection hname, tomlStrings, TomlText.loads_jsonArray hlimit]
  simp only [htexts]
  rfl

/-- Texts that count, and are broken: what stands before the line boundary is no array. -/
theorem scan_broken (hlimit : 1 ≤ limit) (hkey : Plain key.toList)
    (hsection : table ∈ settingSections) (hname : key ∈ settingNames)
    (hvalues : ¬ Unbroken values) (earlier : Assigned) :
    ∃ e, scan limit ⟨table, earlier⟩ (scanned (setting key (tomlStrings values))) =
      .error e := by
  have hbroken : ∃ c ∈ tomlStrings values, lineBoundary c = true := by
    by_contra hnone
    push Not at hnone
    exact hvalues (unbroken_iff.mpr (by simpa using hnone))
  obtain ⟨b, rest, -, hcut⟩ := segments_broken hbroken
  have hhead : (segments (tomlStrings values)).1.head? = some '[' :=
    segments_head rfl (by decide)
  have hline := classify_setting hkey hhead (by decide)
  -- what is left of the line, and what is missing of the array
  obtain ⟨blanks, hblanks⟩ := List.rdropWhile_prefix isSpace (segments (tomlStrings values)).1
  have hwhole : (segments (tomlStrings values)).1.rdropWhile isSpace ++ (blanks ++ b :: rest) =
      jsonArray (values.map String.toList) := by
    rw [← List.append_assoc, hblanks]
    exact hcut.symm
  have hclose : ']' ∈ blanks ++ b :: rest := by
    have hlast := congrArg List.getLast? hwhole
    rw [List.getLast?_append_of_ne_nil _ (by simp), jsonArray, ← List.cons_append,
      List.getLast?_concat] at hlast
    exact List.mem_of_getLast? hlast
  have hmore : JsonText.skip (blanks ++ b :: rest) ≠ [] := by
    intro hnil
    have hall := List.dropWhile_eq_nil_iff.mp hnil _ hclose
    exact absurd hall (by decide)
  have hstart : ((segments (tomlStrings values)).1.rdropWhile isSpace).head? = some '[' := by
    have hne := rdropWhile_ne_nil hhead (by decide)
    rw [← hblanks, List.head?_append_of_ne_nil _ hne] at hhead
    exact hhead
  obtain ⟨e, he⟩ := TomlText.loads_array_cut hlimit hstart hmore hwhole
  refine ⟨loadsError e, ?_⟩
  rw [scanned_setting hkey]
  show (scanLine limit ⟨table, earlier⟩ _).bind _ = _
  rw [scanLine_pair hline hsection hname, he]
  rfl

end Scanning

/-! ### The whole file -/

section File

variable (interp : Interpreter) (paths : InstallPaths) (configuration : ServerConfiguration)
  (limit : ℕ)

/-- The settings of a table that the scanner has no use for. -/
def serverOthers : List (String × List Char) :=
  (publicHost interp configuration).toList.map (fun host => ("public_host_lan", tomlString host)) ++
    [("trusted_origins", tomlStrings configuration.trustedOrigins)]

def stateOthers : List (String × List Char) := [("database_url", tomlString (databaseUrl paths))]

def pathsOthers : List (String × List Char) :=
  [("allowed_roots", tomlStrings [paths.home]), ("monitor_disks", tomlStrings ["/", paths.home]),
    ("user_unit_dir", tomlString paths.userUnitDir)]

/-- What they assign, where line boundaries in them end lines of the scanner. -/
def strayValues (table : String) (settings : List (String × List Char)) :
    Except FallbackError Assigned :=
  (scan limit ⟨table, []⟩ (strayPieces settings)).map Scan.values

variable {limit} in
theorem strayValues_nil {table : String} {settings : List (String × List Char)}
    (h : strayPieces settings = []) : strayValues limit table settings = .ok [] := by
  rw [strayValues, h]
  rfl

def serverLines : List (List Char) :=
  ["# MachineDeck configuration. Administrator credentials are never stored here.".toList,
    "[server]".toList, setting "mode" (tomlString configuration.mode),
    setting "host" (tomlString configuration.host), "port = 8080".toList]

def serverValues : Assigned :=
  [(("server", "port"), .int 8080), (("server", "host"), .str configuration.host),
    (("server", "mode"), .str configuration.mode)]

def middleLines : List (List Char) :=
  [[], "[security]".toList, setting "cookie_secure" (tomlString "auto"), [], "[network]".toList,
    setting "trusted_proxies" (tomlStrings configuration.trustedProxies),
    setting "trusted_networks" (tomlStrings configuration.trustedNetworks), [], "[state]".toList]

def middleValues : Assigned :=
  [(("network", "trusted_networks"), strings configuration.trustedNetworks),
    (("network", "trusted_proxies"), strings configuration.trustedProxies),
    (("security", "cookie_secure"), .str "auto")]

variable {interp paths configuration limit}

theorem renderLines_parts (hport : configuration.port = 8080)
    (hcookie : configuration.cookieSecure = .str "auto") :
    renderLines interp paths configuration =
      serverLines configuration ++ (serverOthers interp configuration).map (fun s => setting s.1 s.2) ++
        middleLines configuration ++ (stateOthers paths).map (fun s => setting s.1 s.2) ++
        [[], "[paths]".toList] ++ (pathsOthers paths).map fun s => setting s.1 s.2 := by
  rw [renderLines, hport, hcookie, serverOthers, List.map_append, List.map_map]
  simp only [serverLines, middleLines, List.append_assoc]
  rfl

theorem serverOthers_other : ∀ s ∈ serverOthers interp configuration, Other s := by
  intro s hs
  rcases List.mem_append.mp hs with hs | hs
  · obtain ⟨host, -, rfl⟩ := List.mem_map.mp hs
    exact other_text (by decide) (by decide) host
  · rw [List.mem_singleton.mp hs]
    exact other_texts (by decide) (by decide) configuration.trustedOrigins

theorem stateOthers_other : ∀ s ∈ stateOthers paths, Other s := by
  intro s hs
  rw [List.mem_singleton.mp hs]
  exact other_text (by decide) (by decide) (databaseUrl paths)

theorem pathsOthers_other : ∀ s ∈ pathsOthers paths, Other s := by
  simp only [pathsOthers, List.forall_mem_cons]
  exact ⟨other_texts (by decide) (by decide) _, other_texts (by decide) (by decide) _,
    other_text (by decide) (by decide) _, by simp⟩

variable {seen found : Scan} {line : List Char} {earlier : Assigned}

/-- A line that is always the same. -/
theorem scan_fixed (hplain : ∀ c ∈ line, lineBoundary c = false) :
    scan limit seen (scanned line) = scanLine limit seen line := by
  rw [scanned, segments_plain hplain]
  show (scanLine limit seen line).bind _ = _
  cases scanLine limit seen line <;> rfl

theorem scan_cons (line : List Char) (lines : List (List Char)) :
    scan limit seen ((line :: lines).flatMap scanned) =
      (scan limit seen (scanned line)).bind fun seen => scan limit seen (lines.flatMap scanned) := by
  rw [List.flatMap_cons, scan_append]

theorem scan_step (h : scan limit seen (scanned line) = .ok found) (lines : List (List Char)) :
    scan limit seen ((line :: lines).flatMap scanned) = scan limit found (lines.flatMap scanned) := by
  rw [scan_cons, h]
  rfl

theorem scan_header (name : String) (hplain : ∀ c ∈ line, lineBoundary c = false)
    (hline : classify line = .header name) :
    scan limit seen (scanned line) = .ok ⟨name, seen.values⟩ := by
  rw [scan_fixed hplain, scanLine_header hline]

theorem scan_blank : scan limit seen (scanned []) = .ok seen := rfl

theorem scan_port : scan limit ⟨"server", earlier⟩ (scanned "port = 8080".toList) =
    .ok ⟨"server", (("server", "port"), .int 8080) :: earlier⟩ := by
  have hline : classify "port = 8080".toList = .pair "port" "8080" := by decide
  have hloads : JsonText.loads limit "8080" = .ok (.int 8080) :=
    JsonText.loads_of_runFor (n := 3) (by decide) rfl
  have hsection : "server" ∈ settingSections := by decide
  rw [scan_fixed (by decide), scanLine_pair hline hsection (by decide), hloads]
  rfl

theorem scan_serverLines (hmode : ∀ c ∈ configuration.mode.toList, rawBoundary c = false)
    (hhost : ∀ c ∈ configuration.host.toList, rawBoundary c = false) :
    scan limit {} ((serverLines configuration).flatMap scanned) =
      .ok ⟨"server", serverValues configuration⟩ := by
  have hcomment : scan limit {} (scanned
      "# MachineDeck configuration. Administrator credentials are never stored here.".toList) =
        .ok {} := by
    rw [scan_fixed (by decide), scanLine_ignored (by decide)]
  rw [serverLines, scan_step hcomment,
    scan_step (scan_header "server" (by decide) (by decide)),
    scan_step (scan_text (by decide) (by decide) (by decide) hmode),
    scan_step (scan_text (by decide) (by decide) (by decide) hhost), scan_step scan_port]
  rfl

/-- The tables in the middle, up to the settings that a line boundary can break. -/
theorem scan_middle_front (seen : Scan) :
    scan limit seen ((middleLines configuration).flatMap scanned) =
      scan limit ⟨"network", (("security", "cookie_secure"), .str "auto") :: seen.values⟩
        ([setting "trusted_proxies" (tomlStrings configuration.trustedProxies),
          setting "trusted_networks" (tomlStrings configuration.trustedNetworks), [],
          "[state]".toList].flatMap scanned) := by
  rw [middleLines, scan_step scan_blank,
    scan_step (scan_header "security" (by decide) (by decide)),
    scan_step (scan_text (by decide) (by decide) (by decide) (by decide)), scan_step scan_blank,
    scan_step (scan_header "network" (by decide) (by decide))]

theorem scan_middle (hlimit : 1 ≤ limit) (hproxies : Unbroken configuration.trustedProxies)
    (hnetworks : Unbroken configuration.trustedNetworks) (seen : Scan) :
    scan limit seen ((middleLines configuration).flatMap scanned) =
      .ok ⟨"state", middleValues configuration ++ seen.values⟩ := by
  rw [scan_middle_front,
    scan_step (scan_texts hlimit (by decide) (by decide) (by decide) hproxies),
    scan_step (scan_texts hlimit (by decide) (by decide) (by decide) hnetworks),
    scan_step scan_blank, scan_step (scan_header "state" (by decide) (by decide))]
  rfl

theorem scan_middle_broken (hlimit : 1 ≤ limit)
    (hbroken : ¬ (Unbroken configuration.trustedProxies ∧ Unbroken configuration.trustedNetworks))
    (seen : Scan) :
    ∃ e, scan limit seen ((middleLines configuration).flatMap scanned) = .error e := by
  have hsection : "network" ∈ settingSections := by decide
  rw [scan_middle_front]
  by_cases hproxies : Unbroken configuration.trustedProxies
  · have hnetworks : ¬ Unbroken configuration.trustedNetworks := fun h => hbroken ⟨hproxies, h⟩
    rw [scan_step (scan_texts hlimit (by decide) hsection (by decide) hproxies), scan_cons]
    obtain ⟨e, he⟩ := scan_broken hlimit (by decide : Plain "trusted_networks".toList) hsection
      (by decide) hnetworks ((("network", "trusted_proxies"), strings configuration.trustedProxies) ::
        (("security", "cookie_secure"), .str "auto") :: seen.values)
    rw [he]
    exact ⟨e, rfl⟩
  · obtain ⟨e, he⟩ := scan_broken hlimit (by decide : Plain "trusted_proxies".toList) hsection
      (by decide) hproxies ((("security", "cookie_secure"), .str "auto") :: seen.values)
    rw [scan_cons, he]
    exact ⟨e, rfl⟩

/-- The settings of a table that do not count, behind what was assigned before. -/
theorem scan_strays {table : String} {settings : List (String × List Char)}
    (h : ∀ s ∈ settings, Other s) (earlier : Assigned) :
    scan limit ⟨table, earlier⟩ ((settings.map fun s => setting s.1 s.2).flatMap scanned) =
      (scan limit ⟨table, []⟩ (strayPieces settings)).map fun found => found.behind earlier := by
  rw [scan_others h]
  exact scan_behind limit ⟨table, []⟩ (strayPieces settings) earlier

theorem scan_pathsLines (seen : Scan) :
    scan limit seen ([[], "[paths]".toList].flatMap scanned) = .ok ⟨"paths", seen.values⟩ := by
  rw [scan_step scan_blank, scan_step (scan_header "paths" (by decide) (by decide))]
  rfl

/-- What the file assigns, in the order in which it stands there. -/
def renderedValues (interp : Interpreter) (paths : InstallPaths)
    (configuration : ServerConfiguration) (limit : ℕ) : Except FallbackError Assigned := do
  let server ← strayValues limit "server" (serverOthers interp configuration)
  let state ← strayValues limit "state" (stateOthers paths)
  let last ← strayValues limit "paths" (pathsOthers paths)
  return last ++ (state ++ (middleValues configuration ++ (server ++ serverValues configuration)))

theorem scan_rendered (hlimit : 1 ≤ limit) (hport : configuration.port = 8080)
    (hcookie : configuration.cookieSecure = .str "auto")
    (hmode : ∀ c ∈ configuration.mode.toList, rawBoundary c = false)
    (hhost : ∀ c ∈ configuration.host.toList, rawBoundary c = false)
    (hproxies : Unbroken configuration.trustedProxies)
    (hnetworks : Unbroken configuration.trustedNetworks) :
    (scan limit {} ((renderLines interp paths configuration).flatMap scanned)).map Scan.values =
      renderedValues interp paths configuration limit := by
  rw [renderLines_parts hport hcookie, renderedValues]
  simp only [List.flatMap_append, scan_append, scan_serverLines hmode hhost, strayValues,
    scan_middle hlimit hproxies hnetworks, scan_pathsLines, scan_strays serverOthers_other,
    scan_strays stateOthers_other, scan_strays pathsOthers_other, Except.bind]
  cases scan limit ⟨"server", []⟩ (strayPieces (serverOthers interp configuration)) with
  | error e => rfl
  | ok server =>
    cases hstate : scan limit ⟨"state", []⟩ (strayPieces (stateOthers paths)) with
    | error e => simp only [Except.map, hstate]; rfl
    | ok state =>
      cases hlast : scan limit ⟨"paths", []⟩ (strayPieces (pathsOthers paths)) with
      | error e => simp only [Except.map, hstate, hlast]; rfl
      | ok last => simp only [Except.map, hstate, hlast]; rfl

/-- A network with a line boundary in it ends the scan. -/
theorem scan_rendered_broken (hlimit : 1 ≤ limit) (hport : configuration.port = 8080)
    (hcookie : configuration.cookieSecure = .str "auto")
    (hmode : ∀ c ∈ configuration.mode.toList, rawBoundary c = false)
    (hhost : ∀ c ∈ configuration.host.toList, rawBoundary c = false)
    (hbroken : ¬ (Unbroken configuration.trustedProxies ∧
      Unbroken configuration.trustedNetworks)) :
    ∃ e, scan limit {} ((renderLines interp paths configuration).flatMap scanned) = .error e := by
  rw [renderLines_parts hport hcookie]
  simp only [List.flatMap_append, scan_append, scan_serverLines hmode hhost]
  show ∃ e, ((((scan limit ⟨"server", serverValues configuration⟩ _).bind _).bind _).bind _).bind _ =
    .error e
  cases scan limit ⟨"server", serverValues configuration⟩
      (((serverOthers interp configuration).map fun s => setting s.1 s.2).flatMap scanned) with
  | error e => exact ⟨e, rfl⟩
  | ok seen =>
    obtain ⟨e, he⟩ := scan_middle_broken hlimit hbroken seen
    refine ⟨e, ?_⟩
    show ((((scan limit seen _).bind _).bind _).bind _) = .error e
    rw [he]
    rfl

end File

end MachineDeck.Access

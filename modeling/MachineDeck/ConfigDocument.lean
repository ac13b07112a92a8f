import MachineDeck.AccessConfiguration

/-!
# The document the installer writes

What a TOML reader finds in the lines of `render_config`, for a configuration on the port that
the installer writes and with a Cookie policy that is a word.

* `Entry` — a line that is always the same, or a key with a text or with an array of texts;
* `renderedTexts` — the texts of the file that stand between quotes;
* `renderedTable` — the tables of the file;
* `loads_rendered`, `loads_rendered_del` — these tables are read back, unless the delete character
  is in one of the texts: JSON writes it as it is, and TOML has it in no string.
-/

namespace MachineDeck.Access

open TomlText
open scoped LineText

/-! ### Lines -/

inductive Entry where
  | fixed (line : List Char) (statement : Statement)
  | text (key value : String)
  | texts (key : String) (values : List String)

/-- An array of texts. -/
def strings (values : List String) : Toml := .arr (values.map .str)

namespace Entry

def line : Entry → List Char
  | fixed line _ => line
  | text key value => setting key (tomlString value)
  | texts key values => setting key (tomlStrings values)

def statement : Entry → Statement
  | fixed _ statement => statement
  | text key value => .pair key (.str value)
  | texts key values => .pair key (strings values)

/-- The texts between quotes. -/
def quoted : Entry → List String
  | fixed _ _ => []
  | text _ value => [value]
  | texts _ values => values

def Sound : Entry → Prop
  | fixed line statement => OneLine line ∧ parseLine line = some statement
  | text key _ => BareKey key.toList
  | texts key _ => BareKey key.toList

theorem bareKey_plain {key : List Char} (hkey : BareKey key) : ∀ c ∈ key, 32 ≤ c.toNat := by
  intro c hc
  have hkey := hkey.2 c hc
  by_contra hcontrol
  have hsmall : ∀ n < 32, keyChar (Char.ofNat n) = false := by decide
  rw [← Char.ofNat_toNat c, hsmall c.toNat (by omega)] at hkey
  cases hkey

theorem setting_oneLine {key : String} (hkey : BareKey key.toList) {value : List Char}
    (hvalue : ∀ c ∈ value, 32 ≤ c.toNat) : OneLine (setting key value) := by
  have hequals : ∀ c ∈ " = ".toList, 32 ≤ c.toNat := by decide
  apply oneLine_of_plain
  intro c hc
  rcases List.mem_append.mp hc with hc | hc
  · rcases List.mem_append.mp hc with hc | hc
    · exact bareKey_plain hkey c hc
    · exact hequals c hc
  · exact hvalue c hc

theorem oneLine {entry : Entry} (h : entry.Sound) : OneLine entry.line := by
  cases entry with
  | fixed line statement => exact h.1
  | text key value => exact setting_oneLine h fun _ => jsonString_plain
  | texts key values => exact setting_oneLine h fun _ => jsonArray_plain

/-- A line is read as its value is, where nothing is left behind the value. -/
theorem parseLine_setting {key : String} (hkey : BareKey key.toList) {c : Char}
    (hc : isBlank c = false) {text : List Char} (read : Option Toml)
    (hread : readValue (c :: text) = read.map fun toml => (toml, [])) :
    parseLine (setting key (c :: text)) = read.map (.pair key) := by
  rw [setting, parseLine_pair hkey hc, hread]
  cases read with
  | none => rfl
  | some toml =>
    show (if endsWell [] = true then some (Statement.pair (String.ofList key.toList) toml)
      else none) = _
    rw [if_pos (by rfl), String.ofList_toList]
    rfl

theorem parseLine_line {entry : Entry} (h : entry.Sound)
    (hquoted : ∀ value ∈ entry.quoted, del ∉ value.toList) :
    parseLine entry.line = some entry.statement := by
  cases entry with
  | fixed line statement => exact h.2
  | text key value =>
    apply parseLine_setting h (c := '"') (by decide) (some (.str value))
    have hread := readValue_jsonString (hquoted value List.mem_cons_self)
    rw [String.ofList_toList] at hread
    exact hread
  | texts key values =>
    apply parseLine_setting h (c := '[') (by decide) (some (strings values))
    have hitems : ∀ s ∈ values.map String.toList, del ∉ s := by
      intro s hs
      obtain ⟨value, hvalue, rfl⟩ := List.mem_map.mp hs
      exact hquoted value hvalue
    have hread := readValue_jsonArray hitems
    rw [List.map_map, show (fun s => Toml.str (String.ofList s)) ∘ String.toList = Toml.str from
      funext fun value => congrArg Toml.str String.ofList_toList] at hread
    exact hread

theorem parseLine_del {entry : Entry} (h : entry.Sound)
    (hquoted : ∃ value ∈ entry.quoted, del ∈ value.toList) : parseLine entry.line = none := by
  obtain ⟨value, hvalue, hdel⟩ := hquoted
  cases entry with
  | fixed line statement => cases hvalue
  | text key text =>
    rw [List.mem_singleton.mp hvalue] at hdel
    exact parseLine_setting h (c := '"') (by decide) none (readValue_jsonString_del hdel)
  | texts key values =>
    apply parseLine_setting h (c := '[') (by decide) none
    exact readValue_jsonArray_del ⟨value.toList, List.mem_map_of_mem hvalue, hdel⟩

/-- Entry by entry, a text is read back. -/
theorem loads_lines {entries : List Entry} (h : ∀ entry ∈ entries, entry.Sound)
    (hquoted : ∀ value ∈ entries.flatMap quoted, del ∉ value.toList) :
    loads (String.ofList (unlines (entries.map line))) =
      ((entries.map statement).foldlM Document.add {}).map Document.table := by
  have hlines : ∀ l ∈ entries.map line, OneLine l := by
    intro l hl
    obtain ⟨entry, hentry, rfl⟩ := List.mem_map.mp hl
    exact oneLine (h entry hentry)
  have hparsed : (entries.map line).mapM parseLine = some (entries.map statement) := by
    clear hlines
    induction entries with
    | nil => rfl
    | cons entry entries ih =>
      have hfirst : parseLine entry.line = some entry.statement :=
        parseLine_line (h entry List.mem_cons_self) fun value hvalue =>
          hquoted value (List.mem_append_left _ hvalue)
      have hrest := ih (fun e he => h e (List.mem_cons_of_mem entry he)) fun value hvalue =>
        hquoted value (List.mem_append_right _ hvalue)
      rw [List.map_cons, List.mapM_cons, hfirst, hrest]
      rfl
  rw [loads_unlines hlines, hparsed]
  rfl

theorem loads_lines_del {entries : List Entry} (h : ∀ entry ∈ entries, entry.Sound)
    (hquoted : ∃ value ∈ entries.flatMap quoted, del ∈ value.toList) :
    loads (String.ofList (unlines (entries.map line))) = none := by
  obtain ⟨value, hvalue, hdel⟩ := hquoted
  obtain ⟨entry, hentry, hvalue⟩ := List.mem_flatMap.mp hvalue
  apply loads_refused _ (List.mem_map_of_mem hentry)
    (parseLine_del (h entry hentry) ⟨value, hvalue, hdel⟩)
  intro l hl
  obtain ⟨entry, hentry, rfl⟩ := List.mem_map.mp hl
  exact oneLine (h entry hentry)

end Entry

/-! ### The whole file -/

section File

variable (interp : Interpreter) (paths : InstallPaths) (configuration : ServerConfiguration)
  (cookie : String)

def blankLine : Entry := .fixed [] .blank

def tableLine (name : String) : Entry := .fixed ('[' :: (name.toList ++ [']'])) (.table name)

def renderedEntries : List Entry :=
  [.fixed "# MachineDeck configuration. Administrator credentials are never stored here.".toList
      .blank,
    tableLine "server",
    .text "mode" configuration.mode,
    .text "host" configuration.host,
    .fixed "port = 8080".toList (.pair "port" (.int 8080))] ++
  (publicHost interp configuration).toList.map (Entry.text "public_host_lan") ++
  [.texts "trusted_origins" configuration.trustedOrigins,
    blankLine,
    tableLine "security",
    .text "cookie_secure" cookie,
    blankLine,
    tableLine "network",
    .texts "trusted_proxies" configuration.trustedProxies,
    .texts "trusted_networks" configuration.trustedNetworks,
    blankLine,
    tableLine "state",
    .text "database_url" (databaseUrl paths),
    blankLine,
    tableLine "paths",
    .texts "allowed_roots" [paths.home],
    .texts "monitor_disks" ["/", paths.home],
    .text "user_unit_dir" paths.userUnitDir]

/-- The texts that the file has between quotes. -/
def renderedTexts : List String := (renderedEntries interp paths configuration cookie).flatMap
  Entry.quoted

def serverTable : Table :=
  [("mode", .str configuration.mode), ("host", .str configuration.host), ("port", .int 8080)] ++
    (publicHost interp configuration).toList.map (fun host => ("public_host_lan", .str host)) ++
    [("trusted_origins", strings configuration.trustedOrigins)]

def networkTable : Table :=
  [("trusted_proxies", strings configuration.trustedProxies),
    ("trusted_networks", strings configuration.trustedNetworks)]

def pathsTable : Table :=
  [("allowed_roots", strings [paths.home]), ("monitor_disks", strings ["/", paths.home]),
    ("user_unit_dir", .str paths.userUnitDir)]

def renderedTable : Table :=
  [("server", .table (serverTable interp configuration)),
    ("security", .table [("cookie_secure", .str cookie)]),
    ("network", .table (networkTable configuration)),
    ("state", .table [("database_url", .str (databaseUrl paths))]),
    ("paths", .table (pathsTable paths))]

theorem serverTable_lookup :
    (serverTable interp configuration).lookup "mode" = some (.str configuration.mode) ∧
      (serverTable interp configuration).lookup "host" = some (.str configuration.host) ∧
      (serverTable interp configuration).lookup "port" = some (.int 8080) ∧
      (serverTable interp configuration).lookup "public_host_lan" =
        (publicHost interp configuration).map .str ∧
      (serverTable interp configuration).lookup "trusted_origins" =
        some (strings configuration.trustedOrigins) := by
  rw [serverTable]
  cases publicHost interp configuration <;> exact ⟨rfl, rfl, rfl, rfl, rfl⟩

theorem renderedEntries_sound :
    ∀ entry ∈ renderedEntries interp paths configuration cookie, entry.Sound := by
  intro entry hentry
  simp only [renderedEntries, List.mem_append, List.mem_cons, List.mem_map, List.not_mem_nil,
    or_false] at hentry
  rcases hentry with (((rfl | rfl | rfl | rfl | rfl) | ⟨host, -, rfl⟩) | rfl | rfl | rfl | rfl |
    rfl | rfl | rfl | rfl | rfl | rfl | rfl | rfl | rfl | rfl | rfl | rfl)
  all_goals first
    | exact ⟨⟨by decide, by decide⟩, rfl⟩
    | (rw [Entry.Sound]; decide)

theorem forall_renderedTexts (P : String → Prop) :
    (∀ value ∈ renderedTexts interp paths configuration cookie, P value) ↔
      (P configuration.mode ∧ P configuration.host ∧ P cookie ∧ P "/") ∧
        (∀ host ∈ publicHost interp configuration, P host) ∧
        (∀ origin ∈ configuration.trustedOrigins, P origin) ∧
        (∀ network ∈ configuration.trustedProxies, P network) ∧
        (∀ network ∈ configuration.trustedNetworks, P network) ∧
        P (databaseUrl paths) ∧ P paths.home ∧ P paths.userUnitDir := by
  have hnone : (∀ value ∈ ([] : List String), P value) ↔ True :=
    iff_true_intro fun value hvalue => absurd hvalue List.not_mem_nil
  simp only [renderedTexts, renderedEntries, List.flatMap_append, List.flatMap_cons,
    List.flatMap_nil, List.flatMap_map, Entry.quoted, tableLine, blankLine, List.nil_append,
    List.append_nil, List.forall_mem_append, List.forall_mem_cons, List.flatMap_singleton',
    Option.mem_toList, hnone]
  tauto

variable {interp paths configuration cookie}

theorem renderLines_eq (hport : configuration.port = 8080)
    (hcookie : configuration.cookieSecure = .str cookie) :
    renderLines interp paths configuration =
      (renderedEntries interp paths configuration cookie).map Entry.line := by
  rw [renderLines, hport, hcookie, renderedEntries]
  simp only [List.map_append, List.map_cons, List.map_map, List.map_nil]
  rfl

/-- The file is read back as its tables. -/
theorem loads_rendered (hport : configuration.port = 8080)
    (hcookie : configuration.cookieSecure = .str cookie)
    (hquoted : ∀ value ∈ renderedTexts interp paths configuration cookie, del ∉ value.toList) :
    loads (String.ofList (unlines (renderLines interp paths configuration))) =
      some (renderedTable interp paths configuration cookie) := by
  rw [renderLines_eq hport hcookie,
    Entry.loads_lines (renderedEntries_sound interp paths configuration cookie) hquoted]
  rw [renderedEntries, renderedTable, serverTable]
  cases publicHost interp configuration <;> rfl

theorem loads_rendered_del (hport : configuration.port = 8080)
    (hcookie : configuration.cookieSecure = .str cookie)
    (hquoted : ∃ value ∈ renderedTexts interp paths configuration cookie, del ∈ value.toList) :
    loads (String.ofList (unlines (renderLines interp paths configuration))) = none := by
  rw [renderLines_eq hport hcookie]
  exact Entry.loads_lines_del (renderedEntries_sound interp paths configuration cookie) hquoted

end File

end MachineDeck.Access

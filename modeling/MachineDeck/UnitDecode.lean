import MachineDeck.UnitAccept

/-!
# Reading a rendered unit

The rules by which systemd reads the values of a unit file, and that a rendered unit is read as
the manifest it was rendered from.

* `decodePath`, `decodeCommand`, `decodeEnvironment` — the values of the three kinds of lines;
* `decodeUnit` — what is read from the text of a unit;
* `rendered_unit_decodes` — whatever the manifest, a rendered text has the lines it should have and
  nothing else, and it is read as the manifest's runtime and environment.
-/

namespace MachineDeck.Systemd

open LineText Traversals

theorem newline_not_mem_quote {escapeDollar : Bool} {value word : String}
    (h : quote escapeDollar value = .ok word) : '\n' ∉ word.toList := by
  obtain ⟨hallowed, htext⟩ := quote_ok h
  rw [htext]
  intro hmem
  rcases mem_quotedWord hmem with hvalue | hcode
  · have hnewline := List.all_eq_true.mp hallowed _ hvalue
    revert hnewline
    decide
  · revert hcode
    decide

/-! ### Paths -/

def decodePath (value : String) : Option String := do
  let bytes ← pathCode.decode value.toList
  String.fromUTF8? ⟨bytes.toArray⟩

theorem fromUTF8_toUTF8 (value : String) : String.fromUTF8? value.toUTF8 = some value := by
  have hvalid : value.toUTF8.IsValidUTF8 := value.isValidUTF8
  rw [String.fromUTF8?, dif_pos hvalid]
  rfl

/-- A path that was escaped is read back. -/
theorem decodePath_escapePath {path value : String} (h : escapePath path = .ok value) :
    decodePath value = some path := by
  have hbytes : pathCode.decode value.toList = some path.toUTF8.data.toList := by
    rw [escapePath_ok h, PrefixCode.decode_encodeAll]
  rw [decodePath, hbytes]
  exact fromUTF8_toUTF8 path

theorem newline_not_mem_escapePath {path value : String} (h : escapePath path = .ok value) :
    '\n' ∉ value.toList := by
  rw [escapePath_ok h]
  intro hmem
  have hnewline := plain_path path _ hmem
  revert hnewline
  decide

/-! ### Commands -/

def decodeCommand (value : String) : Option (List String) := do
  let words ← (quotedWord true).decodeSeparated ' ' value.toList
  return words.map String.ofList

theorem decodeCommand_quote {command words : List String} (hne : command ≠ [])
    (h : command.mapM (quote true) = .ok words) :
    decodeCommand (" ".intercalate words) = some command := by
  have hwords : words.map String.toList =
      (command.map String.toList).map (quotedWord true).encode := by
    rw [List.map_map]
    exact map_of_mapM h fun _ _ hword => (quote_ok hword).2
  have hline : (" ".intercalate words).toList =
      (quotedWord true).encodeSeparated ' ' (command.map String.toList) := by
    rw [String.toList_intercalate, hwords]
    rfl
  have hread := (quotedWord true).decodeSeparated_encode ' ' (command.map String.toList)
    (fun hnil => hne (List.map_eq_nil_iff.mp hnil))
  rw [decodeCommand, hline, hread]
  have hid : String.ofList ∘ String.toList = id := funext fun s => String.ofList_toList
  simp [hid]

/-! ### Environments -/

/-- One quoted word, a name and a value with `=` between them. -/
def decodeEnvironment (value : String) : Option (String × String) := do
  let (word, rest) ← (quotedWord false).read value.toList
  match rest, partition (String.ofList word) '=' with
  | [], (name, some value) => some (name, value)
  | _, _ => none

theorem equals_not_mem {name : String} (h : environmentName name = true) :
    '=' ∉ name.toList := by
  unfold environmentName at h
  intro hmem
  cases hname : name.toList with
  | nil =>
      rw [hname] at hmem
      cases hmem
  | cons c cs =>
      rw [hname] at h hmem
      simp only [Bool.and_eq_true, List.all_eq_true] at h
      rcases List.mem_cons.mp hmem with hc | hcs
      · have hfirst := h.1
        rw [← hc] at hfirst
        revert hfirst
        decide
      · have hother := h.2 _ hcs
        revert hother
        decide

theorem environmentValue_ok {item : String × String} {value : String}
    (h : environmentValue item = .ok value) (hname : environmentName item.1 = true) :
    decodeEnvironment value = some item ∧ '\n' ∉ value.toList := by
  obtain ⟨_, -, hquote⟩ := bind_ok h
  obtain ⟨-, htext⟩ := quote_ok hquote
  have hread := (quotedWord false).read_encode (item.1 ++ "=" ++ item.2).toList []
  rw [List.append_nil] at hread
  have hitem : partition (String.ofList (item.1 ++ "=" ++ item.2).toList) '=' =
      (item.1, some item.2) := by
    rw [String.ofList_toList]
    exact partition_append (equals_not_mem hname)
  constructor
  · rw [decodeEnvironment, htext, hread]
    simp only [Option.bind_eq_bind, Option.bind_some, hitem]
  · exact newline_not_mem_quote hquote

/-! ### The lines of a unit -/

/-- A line that is an assignment: its name and its value. -/
def directive (line : String) : Option (String × String) :=
  match partition line '=' with
  | (name, some value) => some (name, value)
  | (_, none) => none

theorem directive_append {name : String} (hname : '=' ∉ name.toList) (value : String) :
    directive (name ++ "=" ++ value) = some (name, value) := by
  have hpartition : partition (name ++ "=" ++ value) '=' = (name, some value) :=
    partition_append hname
  rw [directive, hpartition]

/-- The assignments of a unit. -/
theorem directives_unitLines (unitName workingDirectory execStart : String)
    (environment : List String) :
    (unitLines unitName workingDirectory execStart environment).filterMap directive =
      [("Description", "MachineDeck managed application " ++ unitName),
       ("After", "network-online.target"), ("Wants", "network-online.target"),
       ("Type", "simple"), ("WorkingDirectory", workingDirectory), ("ExecStart", execStart)] ++
      environment.map (fun value => ("Environment", value)) ++
      [("KillMode", "control-group"), ("TimeoutStartSec", "120"), ("TimeoutStopSec", "30"),
       ("Restart", "no"), ("NoNewPrivileges", "true"), ("WantedBy", "default.target")] := by
  have hdescription : directive ("Description=MachineDeck managed application " ++ unitName) =
      some ("Description", "MachineDeck managed application " ++ unitName) := by
    have hline : "Description=MachineDeck managed application " ++ unitName =
        "Description" ++ "=" ++ ("MachineDeck managed application " ++ unitName) := by
      rw [← String.append_assoc]
      rfl
    rw [hline]
    exact directive_append (by decide) _
  have hdirectory : directive ("WorkingDirectory=" ++ workingDirectory) =
      some ("WorkingDirectory", workingDirectory) :=
    @directive_append "WorkingDirectory" (by decide) workingDirectory
  have hcommand : directive ("ExecStart=" ++ execStart) = some ("ExecStart", execStart) :=
    @directive_append "ExecStart" (by decide) execStart
  have henvironment : (environment.map fun value => "Environment=" ++ value).filterMap directive =
      environment.map fun value => ("Environment", value) := by
    rw [List.filterMap_map, ← List.filterMap_eq_map]
    refine congrArg (fun f => environment.filterMap f) (funext fun value => ?_)
    exact @directive_append "Environment" (by decide) value
  rw [unitLines, List.filterMap_append, List.filterMap_append, henvironment]
  simp only [List.filterMap_cons, hdescription, hdirectory, hcommand]
  rfl

/-- The values assigned to a name. -/
def assigned (name : String) (directives : List (String × String)) : List String :=
  (directives.filter fun directive => directive.1 = name).map Prod.snd

structure DecodedUnit where
  workingDirectory : String
  command : List String
  environment : List (String × String)
  deriving DecidableEq

/-- What is read from the text of a unit with one directory and one command. -/
def decodeUnit (text : String) : Option DecodedUnit := do
  let directives := (splitAt text '\n').filterMap directive
  match assigned "WorkingDirectory" directives, assigned "ExecStart" directives with
  | [workingDirectory], [execStart] =>
    let workingDirectory ← decodePath workingDirectory
    let command ← decodeCommand execStart
    let environment ← (assigned "Environment" directives).mapM decodeEnvironment
    return { workingDirectory, command, environment }
  | _, _ => none

theorem assigned_unitLines (unitName workingDirectory execStart : String)
    (environment : List String) :
    let directives :=
      (unitLines unitName workingDirectory execStart environment).filterMap directive
    assigned "WorkingDirectory" directives = [workingDirectory] ∧
      assigned "ExecStart" directives = [execStart] ∧
      assigned "Environment" directives = environment := by
  have hnone : ∀ name : String, name ≠ "Environment" →
      (environment.map fun value => ("Environment", value)).filter
        (fun directive => directive.1 = name) = [] := by
    intro name hname
    rw [List.filter_eq_nil_iff]
    intro directive hdirective
    obtain ⟨value, -, rfl⟩ := List.mem_map.mp hdirective
    simpa using hname.symm
  have hall : (environment.map fun value => ("Environment", value)).filter
      (fun directive => directive.1 = "Environment") =
        environment.map fun value => ("Environment", value) := by
    rw [List.filter_eq_self]
    intro directive hdirective
    obtain ⟨value, -, rfl⟩ := List.mem_map.mp hdirective
    rfl
  have hvalues : (environment.map fun value => ("Environment", value)).map Prod.snd =
      environment := by
    rw [List.map_map]
    exact List.map_id _
  rw [directives_unitLines]
  refine ⟨?_, ?_, ?_⟩
  · rw [assigned, List.filter_append, List.filter_append, hnone _ (by decide)]
    rfl
  · rw [assigned, List.filter_append, List.filter_append, hnone _ (by decide)]
    rfl
  · rw [assigned, List.filter_append, List.filter_append, hall, List.map_append,
      List.map_append, hvalues]
    exact List.append_nil _

theorem newline_not_mem_unitLines {unitName workingDirectory execStart : String}
    {environment : List String} (hname : '\n' ∉ unitName.toList)
    (hdirectory : '\n' ∉ workingDirectory.toList) (hcommand : '\n' ∉ execStart.toList)
    (henvironment : ∀ value ∈ environment, '\n' ∉ value.toList) :
    ∀ line ∈ unitLines unitName workingDirectory execStart environment, '\n' ∉ line.toList := by
  intro line hline hmem
  rcases char_unitLines hline hmem with h | h | h | h | ⟨value, hvalue, h⟩
  · revert h
    decide
  · exact hname h
  · exact hdirectory h
  · exact hcommand h
  · exact henvironment value hvalue h

/-! ### Rendering, read back -/

theorem unitNameFor_ok {applicationId unitName : String}
    (h : unitNameFor applicationId = .ok unitName) :
    unitName = "machinedeck-" ++ applicationId ++ ".service" ∧ '\n' ∉ unitName.toList := by
  obtain ⟨_, hchars, h⟩ := bind_ok h
  obtain ⟨_, -, h⟩ := bind_ok h
  cases h
  refine ⟨rfl, fun hmem => ?_⟩
  have hid : '\n' ∈ applicationId.toList := by
    simpa using hmem
  have hall := (Bool.and_eq_true _ _ ▸ require_ok hchars).2
  have hsafe := List.all_eq_true.mp hall _ hid
  revert hsafe
  decide

/-- What a rendered text consists of. -/
structure Rendered (manifest : ApplicationManifest) (runtime : ProcessRuntime) (text : String)
    (workingDirectory : String) (words values : List String) : Prop where
  process : manifest.runtime = .process runtime
  directory : escapePath runtime.workingDir.text = .ok workingDirectory
  command : runtime.command.mapM (quote true) = .ok words
  environment : (sortedItems manifest.environment).mapM environmentValue = .ok values
  name : '\n' ∉ ("machinedeck-" ++ manifest.id ++ ".service").toList
  joined : text = "\n".intercalate (unitLines ("machinedeck-" ++ manifest.id ++ ".service")
    workingDirectory (" ".intercalate words) values)
  valid : validateRenderedUnit text = .ok ()

theorem renderUserUnit_ok {host : HostPaths} {manifest : ApplicationManifest} {text : String}
    (h : renderUserUnit host manifest = .ok text) :
    ∃ runtime workingDirectory words values,
      Rendered manifest runtime text workingDirectory words values := by
  unfold renderUserUnit at h
  split at h
  · cases h
  · rename_i runtime hprocess
    obtain ⟨_, -, h⟩ := bind_ok h
    obtain ⟨unitName, hname, h⟩ := bind_ok h
    obtain ⟨words, hwords, h⟩ := bind_ok h
    obtain ⟨workingDirectory, hdirectory, h⟩ := bind_ok h
    obtain ⟨values, hvalues, h⟩ := bind_ok h
    obtain ⟨_, hvalid, h⟩ := bind_ok h
    cases h
    obtain ⟨rfl, hnewline⟩ := unitNameFor_ok hname
    exact ⟨runtime, workingDirectory, words, values, hprocess, hdirectory, hwords, hvalues,
      hnewline, rfl, hvalid⟩

theorem sortedItems_name {environment : Environment} {item : String × String}
    (hitem : item ∈ sortedItems environment) : environmentName item.1 = true :=
  environment.validNames item ((sortedItems_perm environment).mem_iff.mp hitem)

section
variable {manifest : ApplicationManifest} {runtime : ProcessRuntime}
  {text workingDirectory : String} {words values : List String}

/-- The lines of a rendered text are the lines it was put together from. -/
theorem Rendered.lines (h : Rendered manifest runtime text workingDirectory words values) :
    splitAt text '\n' = unitLines ("machinedeck-" ++ manifest.id ++ ".service") workingDirectory
      (" ".intercalate words) values := by
  have hcommand : '\n' ∉ (" ".intercalate words).toList := by
    intro hmem
    rcases mem_intercalate hmem with hspace | ⟨word, hword, hnewline⟩
    · revert hspace
      decide
    · obtain ⟨argument, -, hquote⟩ := mem_of_mapM h.command hword
      exact newline_not_mem_quote hquote hnewline
  have hvalues : ∀ value ∈ values, '\n' ∉ value.toList := by
    intro value hvalue
    obtain ⟨item, hitem, hrun⟩ := mem_of_mapM h.environment hvalue
    exact (environmentValue_ok hrun (sortedItems_name hitem)).2
  rw [h.joined]
  apply splitAt_intercalate
  · exact newline_not_mem_unitLines h.name (newline_not_mem_escapePath h.directory) hcommand hvalues
  · intro hnil
    cases hnil

theorem Rendered.items (h : Rendered manifest runtime text workingDirectory words values) :
    values.mapM decodeEnvironment = some (sortedItems manifest.environment) :=
  mapM_of_mapM h.environment fun _ hitem _ hvalue =>
    (environmentValue_ok hvalue (sortedItems_name hitem)).1

/-- A rendered text is read as what it was rendered from. -/
theorem Rendered.decoded (h : Rendered manifest runtime text workingDirectory words values) :
    decodeUnit text = some { workingDirectory := runtime.workingDir.text,
                             command := runtime.command,
                             environment := sortedItems manifest.environment } := by
  obtain ⟨hdirectory, hcommand, henvironment⟩ := assigned_unitLines
    ("machinedeck-" ++ manifest.id ++ ".service") workingDirectory (" ".intercalate words) values
  rw [decodeUnit, h.lines]
  simp only [hdirectory, hcommand, henvironment, decodePath_escapePath h.directory,
    decodeCommand_quote runtime.command_nonempty h.command, h.items]
  rfl

end

/-- **Rendering is injection-free and lossless**: splitting a rendered text on newlines gives the
fixed lines with one directory, one command and one line per variable, decoding those gives back
what the manifest has, and so does reading the text by the names of its lines. -/
theorem rendered_unit_decodes (host : HostPaths) (manifest : ApplicationManifest) (text : String)
    (hrender : renderUserUnit host manifest = .ok text) :
    ∃ runtime workingDirectory execStart values items,
      manifest.runtime = .process runtime ∧
      splitAt text '\n' = unitLines ("machinedeck-" ++ manifest.id ++ ".service") workingDirectory
        execStart values ∧
      values.length = manifest.environment.entries.length ∧
      decodePath workingDirectory = some runtime.workingDir.text ∧
      decodeCommand execStart = some runtime.command ∧
      values.mapM decodeEnvironment = some items ∧
      items.Perm manifest.environment.entries ∧
      decodeUnit text = some { workingDirectory := runtime.workingDir.text,
                               command := runtime.command, environment := items } := by
  obtain ⟨runtime, workingDirectory, words, values, h⟩ := renderUserUnit_ok hrender
  have hperm := sortedItems_perm manifest.environment
  have hlength : values.length = manifest.environment.entries.length := by
    rw [← hperm.length_eq, (mapM_ok h.environment).length_eq]
  exact ⟨runtime, workingDirectory, " ".intercalate words, values,
    sortedItems manifest.environment, h.process, h.lines, hlength,
    decodePath_escapePath h.directory, decodeCommand_quote runtime.command_nonempty h.command,
    h.items, hperm, h.decoded⟩

theorem rendered_unit_decodes_greeter :
    ∃ runtime workingDirectory execStart values items,
      greeter.runtime = .process runtime ∧
      splitAt (unitText greeter greeterRuntime) '\n' =
        unitLines ("machinedeck-" ++ greeter.id ++ ".service") workingDirectory execStart values ∧
      values.length = greeter.environment.entries.length ∧
      decodePath workingDirectory = some runtime.workingDir.text ∧
      decodeCommand execStart = some runtime.command ∧
      values.mapM decodeEnvironment = some items ∧
      items.Perm greeter.environment.entries ∧
      decodeUnit (unitText greeter greeterRuntime) =
        some { workingDirectory := runtime.workingDir.text, command := runtime.command,
               environment := items } :=
  rendered_unit_decodes ollamaHost greeter (unitText greeter greeterRuntime)
    renderUserUnit_greeter

/-- The pieces of the text of a path. -/
theorem splitAt_text (path : AbsolutePath) :
    splitAt path.text '/' = "" :: (if path.parts = [] then [""] else path.parts) := by
  have hpieces : ∀ piece ∈ "" :: (if path.parts = [] then [""] else path.parts),
      '/' ∉ piece.toList := by
    intro piece hpiece
    rcases List.mem_cons.mp hpiece with rfl | hpiece
    · decide
    · split at hpiece
      · rw [List.mem_singleton.mp hpiece]
        decide
      · exact (path.resolved piece hpiece).2.2.2
  have htext : path.text = "/".intercalate
      ("" :: (if path.parts = [] then [""] else path.parts)) := by
    rw [AbsolutePath.text]
    split
    · rename_i hnil
      rw [hnil]
      rfl
    · rename_i hne
      rw [String.intercalate_cons_of_ne_nil hne, String.empty_append]
  rw [htext]
  exact splitAt_intercalate hpieces (List.cons_ne_nil _ _)

/-- A path is determined by its text. -/
theorem path_text_injective {path path' : AbsolutePath} (h : path.text = path'.text) :
    path = path' := by
  have hsplit : (if path.parts = [] then [""] else path.parts) =
      if path'.parts = [] then [""] else path'.parts := by
    have hpieces := congrArg (fun text => splitAt text '/') h
    simp only [splitAt_text, List.cons.injEq, true_and] at hpieces
    exact hpieces
  have hempty : ∀ path : AbsolutePath, path.parts ≠ [""] := by
    intro path hparts
    exact (path.resolved "" (by rw [hparts]; exact List.mem_singleton_self "")).1 rfl
  have hparts : path.parts = path'.parts := by
    split at hsplit
    · split at hsplit
      · simp_all
      · exact absurd hsplit.symm (hempty path')
    · split at hsplit
      · exact absurd hsplit (hempty path)
      · exact hsplit
  cases path
  cases path'
  cases hparts
  rfl

/-- Two manifests with one rendered text run the same command in the same environment. -/
theorem renderUserUnit_injective {host host' : HostPaths} {manifest manifest' : ApplicationManifest}
    {runtime runtime' : ProcessRuntime} {text : String}
    (hprocess : manifest.runtime = .process runtime)
    (hprocess' : manifest'.runtime = .process runtime')
    (h : renderUserUnit host manifest = .ok text) (h' : renderUserUnit host' manifest' = .ok text) :
    runtime.workingDir = runtime'.workingDir ∧ runtime.command = runtime'.command ∧
      manifest.environment.entries.Perm manifest'.environment.entries := by
  obtain ⟨found, workingDirectory, words, values, hrendered⟩ := renderUserUnit_ok h
  obtain ⟨found', workingDirectory', words', values', hrendered'⟩ := renderUserUnit_ok h'
  cases hprocess.symm.trans hrendered.process
  cases hprocess'.symm.trans hrendered'.process
  have hdecoded := Option.some.inj (hrendered.decoded.symm.trans hrendered'.decoded)
  injection hdecoded with hdirectory hcommand henvironment
  have hperm := sortedItems_perm manifest.environment
  rw [henvironment] at hperm
  exact ⟨path_text_injective hdirectory, hcommand,
    hperm.symm.trans (sortedItems_perm manifest'.environment)⟩

end MachineDeck.Systemd

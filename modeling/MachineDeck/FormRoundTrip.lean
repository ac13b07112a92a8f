import MachineDeck.FormParts

/-!
# An edit form that is saved as it was opened

When the payload of the unchanged form is the manifest again.

* `RuntimeKept`, `validateRuntime_payload` — the runtime;
* `FormKept` — what the form gives back as it was;
* `edit_unchanged_iff` — every other manifest is refused or changed.
-/

namespace MachineDeck.Frontend

open JsonText (Json member?)
open ScriptText (isWhite mem_splitLines splitCommas splitCommas_join splitLines trim trimmed
  trimmed_of_plain)

/-! ### Runtimes -/

def RuntimeKept (host : SchemaHost) : Runtime → Prop
  | .process runtime =>
    host.resolve (trimText runtime.workingDir.text) = some runtime.workingDir ∧
      ∀ argument ∈ runtime.command, '\n' ∉ argument.toList ∧ trimText argument = argument
  | .compose runtime =>
    host.resolve (trimText runtime.workingDir.text) = some runtime.workingDir ∧
      trimText runtime.composeFile = runtime.composeFile

variable {host : SchemaHost}

/-- The slash in front of a path is not trimmed. -/
theorem trimText_absolute (path : AbsolutePath) :
    (trimText path.text).toList.head? = some '/' := by
  have hsplit : path.text.toList = ['/'] ++ ("/".intercalate path.parts).toList := by
    rw [AbsolutePath.text, String.toList_append]
    rfl
  rw [toList_trimText, hsplit, trim_front (by simp) (List.all_iff_forall_prop.mp (by decide))]
  rfl

theorem absoluteWorkingDirectory_trim (path : AbsolutePath) :
    absoluteWorkingDirectory host (.str (trimText path.text)) = host.resolve (trimText path.text) := by
  rw [absoluteWorkingDirectory, host.lax.str_str, Option.bind_some, if_pos (trimText_absolute path)]

/-- The arguments of a command come back exactly when none has a line feed or white space at its
ends. -/
theorem lines_command_iff {command : List String} (hne : ∀ argument ∈ command, argument ≠ "") :
    lines ("\n".intercalate command) = command ↔
      ∀ argument ∈ command, '\n' ∉ argument.toList ∧ trimText argument = argument := by
  constructor
  · intro h argument hargument
    rw [← h, lines] at hargument
    obtain ⟨line, hline, rfl⟩ := List.mem_map.mp hargument
    obtain ⟨htrim, -, hfeed⟩ := mem_splitLines hline
    rw [trimText, String.toList_ofList, htrim]
    exact ⟨hfeed, rfl⟩
  · intro h
    have hplain : ∀ piece ∈ command.map String.toList, trim piece = piece ∧ piece ≠ [] := by
      intro piece hpiece
      obtain ⟨argument, hargument, rfl⟩ := List.mem_map.mp hpiece
      refine ⟨?_, fun hnone => hne argument hargument (String.toList_injective hnone)⟩
      rw [← toList_trimText, (h argument hargument).2]
    rw [lines_join fun argument hargument => (h argument hargument).1, trimmed_of_plain hplain,
      List.map_map]
    simp

theorem str_list {lax : LaxMode} {texts read : List String}
    (h : listOf lax.str (.arr (texts.map .str)) = some read) : read = texts := by
  rw [listOf_dump fun text _ => lax.str_str text] at h
  exact (Option.some.inj h).symm

/-- A process comes back exactly when its directory and its command do. -/
theorem validateProcess_payload {runtime : ProcessRuntime} (text : String) (command : List String) :
    validateRuntime host (.obj [("type", .str "process"), ("working_dir", .str text),
        ("command", .arr (command.map .str))]) = some (.process runtime) ↔
      absoluteWorkingDirectory host (.str text) = some runtime.workingDir ∧
        command = runtime.command := by
  let members : List (String × Json) := [("type", .str "process"), ("working_dir", .str text),
    ("command", .arr (command.map .str))]
  have hdir : member? members "working_dir" = some (.str text) := rfl
  have hcommand : member? members "command" = some (.arr (command.map .str)) := rfl
  have hguard : (!onlyFields processFields members) = false := rfl
  have hruntime : validateRuntime host (.obj members) =
      (validateProcess host members).map .process := rfl
  have hread : listOf host.lax.str (.arr (command.map .str)) = some command :=
    listOf_dump fun argument _ => host.lax.str_str argument
  have hprocess : validateProcess host members =
      (absoluteWorkingDirectory host (.str text)).bind fun dir => safeArgumentVector dir command := by
    rw [validateProcess, hguard, if_neg Bool.false_ne_true, required_of_member hdir,
      required_of_member hcommand, hread]
    rfl
  show validateRuntime host (.obj members) = _ ↔ _
  rw [hruntime, hprocess]
  constructor
  · intro h
    obtain ⟨found, hfound, heq⟩ := Option.map_eq_some_iff.mp h
    cases heq
    obtain ⟨dir, hread, hfound⟩ := Option.bind_eq_some_iff.mp hfound
    obtain ⟨hsame, hvector⟩ := safeArgumentVector_eq_some hfound
    rw [hsame, hvector]
    exact ⟨hread, rfl⟩
  · rintro ⟨hresolved, rfl⟩
    rw [hresolved, Option.bind_some, safeArgumentVector, dif_pos runtime.command_nonempty,
      dif_pos ⟨runtime.command_bounded, runtime.safeArgumentVector, runtime.absoluteExecutable⟩,
      Option.map_some]

/-- The members of a Compose runtime. -/
def composePayload (text composeFile : String) (name : Option String) : List (String × Json) :=
  [("type", .str "compose"), ("working_dir", .str text), ("compose_file", .str composeFile)] ++
    match name with
    | none => []
    | some name => [("project_name", .str name)]

theorem compose_members (text composeFile : String) (name : Option String) :
    member? (composePayload text composeFile name) "type" = some (.str "compose") ∧
    member? (composePayload text composeFile name) "working_dir" = some (.str text) ∧
    member? (composePayload text composeFile name) "compose_file" = some (.str composeFile) ∧
    member? (composePayload text composeFile name) "project_name" = name.map .str ∧
    (!onlyFields composeFields (composePayload text composeFile name)) = false := by
  cases name with
  | none => exact ⟨rfl, rfl, rfl, rfl, rfl⟩
  | some name => exact ⟨rfl, rfl, rfl, rfl, rfl⟩

/-- A Compose project comes back exactly when its directory and its file do. -/
theorem validateCompose_payload {runtime : ComposeRuntime} (text composeFile : String)
    (hfile : safeComposeFilename runtime.composeFile = true)
    (hname : ∀ name, runtime.projectName = some name → projectName name = true) :
    validateRuntime host (.obj (composePayload text composeFile runtime.projectName)) =
        some (.compose runtime) ↔
      absoluteWorkingDirectory host (.str text) = some runtime.workingDir ∧
        composeFile = runtime.composeFile := by
  obtain ⟨htype, hdir, hfileMember, hnameMember, hguard⟩ :=
    compose_members text composeFile runtime.projectName
  have hruntime : validateRuntime host
      (.obj (composePayload text composeFile runtime.projectName)) =
        (validateCompose host (composePayload text composeFile runtime.projectName)).map
          .compose := by
    rw [validateRuntime, htype]
    rfl
  have hread : optional (composePayload text composeFile runtime.projectName) "project_name"
      (nullable (host.lax.text projectName)) none = some runtime.projectName := by
    rw [optional, hnameMember]
    cases hproject : runtime.projectName with
    | none => rfl
    | some name => exact congrArg (Option.map some) (host.lax.text_str (hname name hproject))
  rw [hruntime]
  constructor
  · intro h
    obtain ⟨found, hfound, heq⟩ := Option.map_eq_some_iff.mp h
    cases heq
    rw [validateCompose, hguard, if_neg Bool.false_ne_true, required_of_member hdir,
      optional_of_member hfileMember] at hfound
    obtain ⟨dir, hdir', hfound⟩ := Option.bind_eq_some_iff.mp hfound
    obtain ⟨file, hfile', hfound⟩ := Option.bind_eq_some_iff.mp hfound
    obtain ⟨name, -, hfound⟩ := Option.bind_eq_some_iff.mp hfound
    split_ifs at hfound with hpart
    cases hfound
    exact ⟨hdir', (text_given hfile').symm⟩
  · rintro ⟨hdir', rfl⟩
    rw [validateCompose, hguard, if_neg Bool.false_ne_true, required_of_member hdir,
      optional_of_member hfileMember, hdir', host.lax.text_str hfile, hread]
    exact congrArg (Option.map Runtime.compose) (dif_pos runtime.safeComposeFilename)

theorem projectName_plain {name : String} (h : projectName name = true) :
    name ≠ "" ∧ trimText name = name := by
  rw [projectName] at h
  split at h
  · cases h
  · rename_i c cs hname
    rw [Bool.and_eq_true, List.all_eq_true] at h
    constructor
    · rintro rfl
      cases hname
    · refine trimText_plain ?_
      rw [hname, List.forall_mem_cons]
      refine ⟨lowerOrDigit_plain h.1, fun d hd => ?_⟩
      have hd' := h.2 d hd
      simp only [Bool.or_eq_true, beq_iff_eq] at hd'
      rcases hd' with (hd' | rfl) | rfl
      · exact lowerOrDigit_plain hd'
      · decide
      · decide

theorem composeFile_point {value : String} (h : safeComposeFilename value = true) :
    '.' ∈ value.toList := by
  rw [safeComposeFilename, Bool.and_eq_true, Bool.or_eq_true] at h
  rcases h.2 with h | h
  · exact (List.isSuffixOf_iff_suffix.mp h).subset (by decide)
  · exact (List.isSuffixOf_iff_suffix.mp h).subset (by decide)

/-- The runtime of an accepted manifest, opened and collected. -/
theorem validateRuntime_payload {manifest : ApplicationManifest}
    (h : RuntimeAccepted host manifest.runtime) :
    validateRuntime host (collectRuntime (openApplicationForm manifest)) = some manifest.runtime ↔
      RuntimeKept host manifest.runtime := by
  cases hruntime : manifest.runtime with
  | process runtime =>
      have hcollect : collectRuntime (openApplicationForm manifest) = .obj [("type", .str "process"),
          ("working_dir", .str (trimText runtime.workingDir.text)),
          ("command", .arr ((lines ("\n".intercalate runtime.command)).map .str))] := by
        rw [collectRuntime, openApplicationForm, hruntime]
        rfl
      rw [hcollect, validateProcess_payload, absoluteWorkingDirectory_trim, lines_command_iff
        fun argument hargument => (runtime.safeArgumentVector argument hargument).1]
      rfl
  | compose runtime =>
      rw [hruntime] at h
      obtain ⟨-, hfile, hname⟩ := h
      have hfileNe : trimText runtime.composeFile ≠ "" :=
        trimText_ne (by decide) (composeFile_point hfile)
      have hcollect : collectRuntime (openApplicationForm manifest) = .obj (composePayload
          (trimText runtime.workingDir.text) (trimText runtime.composeFile)
            runtime.projectName) := by
        rw [collectRuntime, openApplicationForm, hruntime]
        show (if "compose" = "process" then _ else Json.obj ([("type", Json.str "compose"),
          ("working_dir", .str (trimText runtime.workingDir.text)), ("compose_file", .str
            (if trimText runtime.composeFile = "" then "compose.yaml" else
              trimText runtime.composeFile))] ++
          if "compose" = "compose" ∧ trimText (runtime.projectName.getD "") ≠ "" then
            [("project_name", .str (trimText (runtime.projectName.getD "")))] else [])) = _
        rw [if_neg (by decide), if_neg hfileNe]
        cases hproject : runtime.projectName with
        | none => rfl
        | some name =>
            obtain ⟨hne, htrim⟩ := projectName_plain (hname name hproject)
            rw [Option.getD_some, htrim, if_pos ⟨rfl, hne⟩]
            rfl
      rw [hcollect, validateCompose_payload _ _ hfile hname, absoluteWorkingDirectory_trim]
      rfl

/-! ### Names and tags -/

theorem hyphened_plain {c : Char} (h : (lowerOrDigit c || c == '-') = true) :
    c ≠ ',' ∧ isWhite c = false := by
  constructor
  · rintro rfl
    exact absurd h (by decide)
  · rcases Bool.or_eq_true_iff.mp h with h | h
    · exact lowerOrDigit_plain h
    · rw [eq_of_beq h]
      decide

theorem applicationId_plain {id : String} (h : applicationId id = true) : trimText id = id := by
  refine trimText_plain fun c hc => ?_
  simp only [applicationId, Bool.and_eq_true, List.all_eq_true] at h
  exact (hyphened_plain (h.1.1.2 c hc)).2

theorem tagText_plain {tag : String} (h : tagText tag = true) :
    tag ≠ "" ∧ ∀ c ∈ tag.toList, c ≠ ',' ∧ isWhite c = false := by
  rw [tagText] at h
  split at h
  · cases h
  · rename_i c cs htag
    rw [Bool.and_eq_true, Bool.and_eq_true, List.all_eq_true] at h
    constructor
    · rintro rfl
      cases htag
    · rw [htag, List.forall_mem_cons]
      exact ⟨hyphened_plain (by rw [h.1.1]; rfl), fun d hd => hyphened_plain (h.1.2 d hd)⟩

/-- Accepted tags come back as they were. -/
theorem splitCommas_open {tags : List String} (h : ∀ tag ∈ tags, tagText tag = true) :
    (splitCommas (", ".intercalate tags).toList).map String.ofList = tags := by
  have hplain : ∀ piece ∈ tags.map String.toList,
      ',' ∉ piece ∧ trim piece = piece ∧ piece ≠ [] := by
    intro piece hpiece
    obtain ⟨tag, htag, rfl⟩ := List.mem_map.mp hpiece
    obtain ⟨hne, hchars⟩ := tagText_plain (h tag htag)
    refine ⟨fun hmem => (hchars _ hmem).1 rfl, ?_, fun hnone => hne (String.toList_injective hnone)⟩
    exact LineText.stripBy_of_plain fun c hc => (hchars c hc).2
  have hjoin : ", ".toList = [',', ' '] := rfl
  rw [String.toList_intercalate, hjoin, splitCommas_join fun piece hpiece => (hplain piece hpiece).1,
    trimmed_of_plain fun piece hpiece => (hplain piece hpiece).2, List.map_map]
  simp

/-! ### Manifests -/

/-- What the form gives back as it was. -/
structure FormKept (host : SchemaHost) (manifest : ApplicationManifest) : Prop where
  name : trimText manifest.name = manifest.name
  description : trimText manifest.description = manifest.description
  runtime : RuntimeKept host manifest.runtime
  environment : ∀ entry ∈ manifest.environment.entries, trimEnd entry.2 = entry.2
  ports : ∀ port ∈ manifest.ports, PortKept port

/-- The payload, but for the ports. -/
def manifestPayload (manifest : ApplicationManifest) (ports : List Json) : List (String × Json) :=
  [("version", .int 1), ("id", .str manifest.id), ("name", .str (trimText manifest.name)),
    ("description", .str (trimText manifest.description)), ("enabled", .bool manifest.enabled),
    ("runtime", collectRuntime (openApplicationForm manifest)),
    ("environment", .obj ((manifest.environment.entries.map trimmedEntry).map fun entry =>
      (entry.1, .str entry.2))),
    ("ports", .arr ports), ("tags", .arr (manifest.tags.map .str))]

theorem collectManifest_open (numbers : Numbers) {manifest : ApplicationManifest}
    (h : ∀ tag ∈ manifest.tags, tagText tag = true) :
    collectManifest numbers (openApplicationForm manifest) =
      (collectPorts numbers (manifest.ports.map addPortRow)).map fun ports =>
        .obj (manifestPayload manifest ports) := by
  have hform : (openApplicationForm manifest).environment =
        "\n".intercalate (manifest.environment.entries.map entryLine) ∧
      (openApplicationForm manifest).ports = manifest.ports.map addPortRow ∧
      (openApplicationForm manifest).id = manifest.id ∧
      (openApplicationForm manifest).name = manifest.name ∧
      (openApplicationForm manifest).description = manifest.description ∧
      (openApplicationForm manifest).enabled = manifest.enabled ∧
      (openApplicationForm manifest).tags = ", ".intercalate manifest.tags := by
    rw [openApplicationForm]
    cases manifest.runtime with
    | process runtime => exact ⟨rfl, rfl, rfl, rfl, rfl, rfl, rfl⟩
    | compose runtime => exact ⟨rfl, rfl, rfl, rfl, rfl, rfl, rfl⟩
  obtain ⟨henvironment, hports, hid, hname, hdescription, henabled, htags⟩ := hform
  have htagsBack : (splitCommas (", ".intercalate manifest.tags).toList).map
      (fun tag => Json.str (String.ofList tag)) = manifest.tags.map .str := by
    have hback := congrArg (List.map Json.str) (splitCommas_open h)
    rwa [List.map_map] at hback
  rw [collectManifest, henvironment, parseEnvironment_open, hports, hid, hname, hdescription,
    henabled, htags, htagsBack, applicationId_plain manifest.validApplicationId]
  cases collectPorts numbers (manifest.ports.map addPortRow) with
  | error message => rfl
  | ok ports => rfl

theorem validEnvironmentNames_trimmed (environment : Environment) :
    validEnvironmentNames (environment.entries.map trimmedEntry) = some environment ↔
      ∀ entry ∈ environment.entries, trimEnd entry.2 = entry.2 := by
  have hsame : environment.entries.map trimmedEntry = environment.entries ↔
      ∀ entry ∈ environment.entries, trimEnd entry.2 = entry.2 := by
    constructor
    · intro h entry hentry
      have hid : environment.entries.map trimmedEntry = environment.entries.map id := by
        rw [h, List.map_id]
      exact congrArg Prod.snd (List.map_inj_left.mp hid entry hentry)
    · intro h
      have hid : environment.entries.map trimmedEntry = environment.entries.map id :=
        List.map_inj_left.mpr fun entry hentry => Prod.ext rfl (h entry hentry)
      rw [hid, List.map_id]
  rw [← hsame]
  constructor
  · intro h
    rw [validEnvironmentNames] at h
    split_ifs at h with hvalid
    exact congrArg Environment.entries (Option.some.inj h)
  · intro h
    rw [h, validEnvironmentNames, dif_pos ⟨environment.distinct, environment.validNames,
      environment.safeValues⟩]

theorem validateManifest_payload {manifest : ApplicationManifest} (h : ManifestAccepted host manifest)
    (ports : List Json) :
    validateManifest host (.obj (manifestPayload manifest ports)) = some manifest ↔
      trimText manifest.name = manifest.name ∧
      trimText manifest.description = manifest.description ∧
      RuntimeKept host manifest.runtime ∧
      (∀ entry ∈ manifest.environment.entries, trimEnd entry.2 = entry.2) ∧
      validatePorts host (.arr ports) = some manifest.ports := by
  rw [← validateRuntime_payload h.runtime, ← validEnvironmentNames_trimmed,
    ← validateEnvironment_texts host.lax]
  have hguard : (!onlyFields manifestFields (manifestPayload manifest ports)) = false := rfl
  have hversion : member? (manifestPayload manifest ports) "version" = some (.int 1) := rfl
  have hid : member? (manifestPayload manifest ports) "id" = some (.str manifest.id) := rfl
  have hname : member? (manifestPayload manifest ports) "name" =
    some (.str (trimText manifest.name)) := rfl
  have hdescription : member? (manifestPayload manifest ports) "description" =
    some (.str (trimText manifest.description)) := rfl
  have henabled : member? (manifestPayload manifest ports) "enabled" =
    some (.bool manifest.enabled) := rfl
  have hruntime : member? (manifestPayload manifest ports) "runtime" =
    some (collectRuntime (openApplicationForm manifest)) := rfl
  have henvironment : member? (manifestPayload manifest ports) "environment" = some (.obj
    ((manifest.environment.entries.map trimmedEntry).map fun entry => (entry.1, .str entry.2))) :=
    rfl
  have hports : member? (manifestPayload manifest ports) "ports" = some (.arr ports) := rfl
  have htags : member? (manifestPayload manifest ports) "tags" =
    some (.arr (manifest.tags.map .str)) := rfl
  have hone : checked host.lax.literalOne (.int 1) = some (.int 1) :=
    checked_eq_some.mpr ⟨rfl, host.lax.literalOne_one⟩
  rw [validateManifest, hguard, if_neg Bool.false_ne_true, optional_of_member hversion,
    required_of_member hid, required_of_member hname, optional_of_member hdescription,
    optional_of_member henabled, required_of_member hruntime, optional_of_member henvironment,
    optional_of_member hports, optional_of_member htags, hone,
    host.lax.text_str manifest.validApplicationId, host.lax.bool_bool,
    validateTags_dump host.lax h.tags h.tags_bounded h.tags_distinct]
  constructor
  · intro hread
    obtain ⟨version, -, hread⟩ := Option.bind_eq_some_iff.mp hread
    obtain ⟨readId, -, hread⟩ := Option.bind_eq_some_iff.mp hread
    obtain ⟨name, hname', hread⟩ := Option.bind_eq_some_iff.mp hread
    obtain ⟨description, hdescription', hread⟩ := Option.bind_eq_some_iff.mp hread
    obtain ⟨enabled, -, hread⟩ := Option.bind_eq_some_iff.mp hread
    obtain ⟨runtime, hruntime', hread⟩ := Option.bind_eq_some_iff.mp hread
    obtain ⟨environment, henvironment', hread⟩ := Option.bind_eq_some_iff.mp hread
    obtain ⟨found, hports', hread⟩ := Option.bind_eq_some_iff.mp hread
    obtain ⟨tags, -, hread⟩ := Option.bind_eq_some_iff.mp hread
    split_ifs at hread with hunique
    have hsame := Option.some.inj hread
    have hsameName : name = manifest.name := congrArg ApplicationManifest.name hsame
    have hsameDescription : description = manifest.description :=
      congrArg ApplicationManifest.description hsame
    have hsameRuntime : runtime = manifest.runtime := congrArg ApplicationManifest.runtime hsame
    have hsameEnvironment : environment = manifest.environment :=
      congrArg ApplicationManifest.environment hsame
    have hsamePorts : found = manifest.ports := congrArg ApplicationManifest.ports hsame
    rw [← text_given hname', ← text_given hdescription', hsameName, hsameDescription,
      hruntime', henvironment', hports', hsameRuntime, hsameEnvironment, hsamePorts]
    exact ⟨rfl, rfl, rfl, rfl, rfl⟩
  · rintro ⟨hsameName, hsameDescription, hsameRuntime, hsameEnvironment, hsamePorts⟩
    rw [hsameName, hsameDescription, hsameRuntime, hsameEnvironment, hsamePorts,
      host.lax.text_str h.name, host.lax.text_str h.description]
    exact dif_pos ⟨manifest.validApplicationId, manifest.uniquePortIds, manifest.uniqueHostPorts,
      manifest.onePrimary⟩

theorem collected_iff (numbers : Numbers) {manifest : ApplicationManifest}
    (h : ManifestAccepted host manifest) :
    (∃ payload, collectManifest numbers (openApplicationForm manifest) = .ok payload ∧
      validateManifest host payload = some manifest) ↔ FormKept host manifest := by
  have hports := collectPorts_iff numbers h.ports h.ports_bounded
  rw [collectManifest_open numbers h.tags]
  constructor
  · rintro ⟨payload, hpayload, hread⟩
    cases hcollect : collectPorts numbers (manifest.ports.map addPortRow) with
    | error message =>
        rw [hcollect] at hpayload
        cases hpayload
    | ok ports =>
        rw [hcollect] at hpayload
        cases hpayload
        obtain ⟨hname, hdescription, hruntime, henvironment, hread⟩ :=
          (validateManifest_payload h ports).mp hread
        exact ⟨hname, hdescription, hruntime, henvironment, hports.mp ⟨ports, hcollect, hread⟩⟩
  · intro hkept
    obtain ⟨ports, hcollect, hread⟩ := hports.mpr hkept.ports
    rw [hcollect]
    exact ⟨_, rfl, (validateManifest_payload h ports).mpr ⟨hkept.name, hkept.description,
      hkept.runtime, hkept.environment, hread⟩⟩

/-- **An edit without changes** is accepted and changes nothing exactly when the form gives back all
that it shows: there is no white space around the texts, no line feed in an argument and no health
path. -/
theorem edit_unchanged_iff (numbers : Numbers) {raw : Json} {manifest : ApplicationManifest}
    (hresolve : host.ResolvesOnce) (h : validateManifest host raw = some manifest) :
    (∃ payload, collectManifest numbers (openApplicationForm manifest) = .ok payload ∧
      validateManifest host payload = some manifest) ↔ FormKept host manifest :=
  collected_iff numbers (validateManifest_accepted hresolve h)

/-- `Number` on decimal digits. -/
def decimalNumbers : Numbers where
  number text := .int (Nat.ofDigitChars 10 text.toList 0)
  digits n := by
    have hdigits : (toString n).toList = Nat.toDigits 10 n := String.toList_ofList
    rw [hdigits, Nat.ofDigitChars_toDigits (by decide) (by decide)]

theorem legacy_kept : FormKept ollamaSchemaHost legacyOllama where
  name := by decide
  description := by decide
  runtime := by
    refine ⟨?_, by decide⟩
    show ollamaSchemaHost.resolve (trimText "/srv/ollama") = some ollamaDir
    decide
  environment entry hentry := by
    have hnone : entry ∈ ([] : List (String × String)) := hentry
    cases hnone
  ports := by
    intro port hport
    rw [List.mem_singleton.mp hport]
    exact ⟨by decide, by decide, fun path hpath => by cases hpath; decide, rfl⟩

theorem edit_unchanged_iff_legacy :
    ∃ payload, collectManifest decimalNumbers (openApplicationForm legacyOllama) = .ok payload ∧
      validateManifest ollamaSchemaHost payload = some legacyOllama :=
  (edit_unchanged_iff decimalNumbers ollamaSchemaHost_resolvesOnce validateManifest_legacy).mpr
    legacy_kept

/-- The port has a health path. -/
def monitored : ApplicationManifest where
  id := "ollama"
  name := "Ollama"
  runtime := ollama.runtime
  ports := [{ id := "api", name := "API", hostPort := 11434, path := some "/",
              healthPath := some "/health", hostPort_range := ollamaPort_range }]
  validApplicationId := ollamaId_valid
  uniquePortIds := by decide
  uniqueHostPorts := by decide
  onePrimary := by decide

theorem monitored_accepted : ManifestAccepted ollamaSchemaHost monitored where
  name := by decide
  description := by decide
  runtime := by
    show ollamaSchemaHost.resolve "/srv/ollama" = some ollamaDir
    decide
  ports := by
    intro port hport
    rw [List.mem_singleton.mp hport]
    exact ⟨by decide, by decide, by decide, fun path hpath => by cases hpath; decide,
      fun path hpath => by cases hpath; decide, fun _ => Option.some_ne_none _, fun hno => by cases hno⟩
  ports_bounded := by decide
  tags := by simp [monitored]
  tags_bounded := by decide
  tags_distinct := by decide

/-- The health path of a stored manifest is gone after an edit without changes. -/
theorem health_path_lost :
    validateManifest ollamaSchemaHost (dumpManifest monitored) = some monitored ∧
      ¬ ∃ payload, collectManifest decimalNumbers (openApplicationForm monitored) = .ok payload ∧
        validateManifest ollamaSchemaHost payload = some monitored := by
  refine ⟨validateManifest_dump monitored_accepted, fun h => ?_⟩
  have hkept := (collected_iff decimalNumbers monitored_accepted).mp h
  have hnone := (hkept.ports _ (List.mem_singleton_self _)).healthPath
  cases hnone

end MachineDeck.Frontend

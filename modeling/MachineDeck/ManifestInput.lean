import MachineDeck.ApplicationService
import MachineDeck.FirstOccurrences
import MachineDeck.PortSchema

/-!
# Manifests as they are given and as they are stored

`ApplicationManifest.model_validate` of `schemas/applications.py` with the validators behind it,
and `_serialize_manifest` of `services/applications.py`.

* `SchemaHost` — pydantic's scalars, the tables of `urlsplit` and `Path.resolve`;
* `validateRuntime`, `validateEnvironment`, `validateTags`, `validatePorts`, `validateManifest`;
* `ManifestAccepted`, `validateManifest_accepted` — what the validators leave;
* `dumpManifest`, `validateManifest_dump` — what has been written is accepted as it was;
* `YamlText`, `manifestYaml` — the stored text; `reload_unchanged` — it is read as it was.
-/

namespace MachineDeck

open FirstOccurrences (firsts firsts_of_nodup nodup_firsts mem_firsts)
open JsonText (Json member?)
open UrlSplit (CaseTables)

/-- What the validators use; `resolve` is none where a path cannot be resolved. -/
structure SchemaHost where
  lax : LaxMode
  tables : CaseTables
  resolve : String → Option AbsolutePath

/-- `Path.resolve` is idempotent. -/
def SchemaHost.ResolvesOnce (host : SchemaHost) : Prop :=
  ∀ text path, host.resolve text = some path → host.resolve path.text = some path

/-! ### Runtimes -/

/-- `absolute_working_directory`, the validator of both runtimes. -/
def absoluteWorkingDirectory (host : SchemaHost) (value : Json) : Option AbsolutePath :=
  (host.lax.str value).bind fun text =>
    if text.toList.head? = some '/' then host.resolve text else none

def processFields : List String := ["type", "working_dir", "command"]

def composeFields : List String := ["type", "working_dir", "compose_file", "project_name"]

/-- `safe_argument_vector`, with the bounds of the field. -/
def safeArgumentVector (workingDir : AbsolutePath) (command : List String) : Option ProcessRuntime :=
  if hsome : command ≠ [] then
    if h : command.length ≤ 128 ∧ (∀ argument ∈ command, argument ≠ "" ∧ '\x00' ∉ argument.toList) ∧
        (command.head hsome).toList.head? = some '/' then
      some {
        workingDir, command, command_nonempty := hsome, command_bounded := h.1
        safeArgumentVector := h.2.1, absoluteExecutable := h.2.2 }
    else none
  else none

def validateProcess (host : SchemaHost) (members : List (String × Json)) : Option ProcessRuntime := do
  if !onlyFields processFields members then none
  else
    let workingDir ← required members "working_dir" (absoluteWorkingDirectory host)
    let command ← required members "command" (listOf host.lax.str)
    safeArgumentVector workingDir command

/-- `safe_compose_filename`. -/
def safeComposeFilename (value : String) : Bool :=
  decide (PathPart value) &&
    (".yaml".toList.isSuffixOf value.toList || ".yml".toList.isSuffixOf value.toList)

/-- `^[a-z0-9][a-z0-9_-]*$`. -/
def projectName (name : String) : Bool :=
  match name.toList with
  | [] => false
  | c :: cs => lowerOrDigit c && cs.all fun d => lowerOrDigit d || d == '_' || d == '-'

def validateCompose (host : SchemaHost) (members : List (String × Json)) : Option ComposeRuntime := do
  if !onlyFields composeFields members then none
  else
    let workingDir ← required members "working_dir" (absoluteWorkingDirectory host)
    let composeFile ← optional members "compose_file" (host.lax.text safeComposeFilename)
      "compose.yaml"
    let projectName ← optional members "project_name" (nullable (host.lax.text projectName)) none
    if h : PathPart composeFile then
      some { workingDir, composeFile, projectName, safeComposeFilename := h }
    else none

/-- `Runtime`, by its discriminator. -/
def validateRuntime (host : SchemaHost) : Json → Option Runtime
  | .obj members =>
    match member? members "type" with
    | some (.str "process") => (validateProcess host members).map .process
    | some (.str "compose") => (validateCompose host members).map .compose
    | _ => none
  | _ => none

/-! ### The other fields -/

/-- `valid_environment_names`; the names of a dictionary are distinct. -/
def validEnvironmentNames (entries : List (String × String)) : Option Environment :=
  if h : (entries.map Prod.fst).Nodup ∧ (∀ entry ∈ entries, environmentName entry.1 = true) ∧
      ∀ entry ∈ entries, entry.2.toList.all environmentChar = true then
    some { entries, distinct := h.1, validNames := h.2.1, safeValues := h.2.2 }
  else none

def validateEnvironment (lax : LaxMode) : Json → Option Environment
  | .obj members =>
    (members.mapM fun m => (lax.str m.2).map (m.1, ·)).bind validEnvironmentNames
  | _ => none

/-- `[a-z0-9][a-z0-9-]{0,62}`. -/
def tagText (tag : String) : Bool :=
  match tag.toList with
  | [] => false
  | c :: cs => lowerOrDigit c && (cs.all fun d => lowerOrDigit d || d == '-') && cs.length ≤ 62

/-- `max_length` of a list. -/
def atMost {α : Type*} (most : ℕ) (l : List α) : Bool := l.length ≤ most

/-- `valid_tags`. -/
def validateTags (lax : LaxMode) (value : Json) : Option (List String) :=
  ((listOf lax.str value).bind (checked (atMost 64))).bind fun tags =>
    (checked (fun tags => tags.all tagText) tags).map firsts

def validatePorts (host : SchemaHost) (value : Json) : Option (List PortDefinition) :=
  (listOf (validatePort host.lax host.tables) value).bind (checked (atMost 64))

def manifestFields : List String :=
  ["version", "id", "name", "description", "enabled", "runtime", "environment", "ports", "tags"]

/-- `ApplicationManifest.model_validate`; the last check is `unique_ports`. -/
def validateManifest (host : SchemaHost) : Json → Option ApplicationManifest
  | .obj members => do
    if !onlyFields manifestFields members then none
    else
      let _version ← optional members "version" (checked host.lax.literalOne) (.int 1)
      let id ← required members "id" (host.lax.text applicationId)
      let name ← required members "name" (host.lax.text (lengthBetween 1 200))
      let description ← optional members "description" (host.lax.text (lengthBetween 0 4000)) ""
      let enabled ← optional members "enabled" host.lax.bool true
      let runtime ← required members "runtime" (validateRuntime host)
      let environment ← optional members "environment" (validateEnvironment host.lax) ∅
      let ports ← optional members "ports" (validatePorts host) []
      let tags ← optional members "tags" (validateTags host.lax) []
      if h : applicationId id = true ∧ (ports.map PortDefinition.id).Nodup ∧
          (ports.map PortDefinition.hostPort).Nodup ∧
          (ports.filter fun port => port.primary && port.protocol.isWeb).length ≤ 1 then
        some {
          id, name, description, enabled, runtime, environment, ports, tags
          validApplicationId := h.1, uniquePortIds := h.2.1, uniqueHostPorts := h.2.2.1
          onePrimary := h.2.2.2 }
      else none
  | _ => none

/-! ### Accepted manifests -/

/-- A runtime that the validators have left. -/
def RuntimeAccepted (host : SchemaHost) : Runtime → Prop
  | .process runtime => host.resolve runtime.workingDir.text = some runtime.workingDir
  | .compose runtime =>
    host.resolve runtime.workingDir.text = some runtime.workingDir ∧
      safeComposeFilename runtime.composeFile = true ∧
      ∀ name, runtime.projectName = some name → projectName name = true

/-- A manifest that the validators have left; what the manifest itself carries is not repeated. -/
structure ManifestAccepted (host : SchemaHost) (manifest : ApplicationManifest) : Prop where
  name : lengthBetween 1 200 manifest.name = true
  description : lengthBetween 0 4000 manifest.description = true
  runtime : RuntimeAccepted host manifest.runtime
  ports : ∀ port ∈ manifest.ports, PortAccepted host.tables port
  ports_bounded : manifest.ports.length ≤ 64
  tags : ∀ tag ∈ manifest.tags, tagText tag = true
  tags_bounded : manifest.tags.length ≤ 64
  tags_distinct : manifest.tags.Nodup

section Accepted

variable {host : SchemaHost}

theorem absoluteWorkingDirectory_accepted (hresolve : host.ResolvesOnce) {value : Json}
    {path : AbsolutePath} (h : absoluteWorkingDirectory host value = some path) :
    host.resolve path.text = some path := by
  obtain ⟨text, -, h⟩ := Option.bind_eq_some_iff.mp h
  split_ifs at h with habsolute
  exact hresolve text path h

theorem safeArgumentVector_eq_some {workingDir : AbsolutePath} {command : List String}
    {runtime : ProcessRuntime} (h : safeArgumentVector workingDir command = some runtime) :
    runtime.workingDir = workingDir ∧ runtime.command = command := by
  rw [safeArgumentVector] at h
  split_ifs at h with hsome hsafe
  cases h
  exact ⟨rfl, rfl⟩

theorem validateProcess_accepted (hresolve : host.ResolvesOnce) {members : List (String × Json)}
    {runtime : ProcessRuntime} (h : validateProcess host members = some runtime) :
    host.resolve runtime.workingDir.text = some runtime.workingDir := by
  rw [validateProcess] at h
  split_ifs at h with hfields
  obtain ⟨workingDir, hdir, h⟩ := Option.bind_eq_some_iff.mp h
  obtain ⟨command, -, h⟩ := Option.bind_eq_some_iff.mp h
  rw [(safeArgumentVector_eq_some h).1]
  exact required_accepted (P := fun path => host.resolve path.text = some path) hdir
    fun value => absoluteWorkingDirectory_accepted hresolve

theorem validateCompose_accepted (hresolve : host.ResolvesOnce) {members : List (String × Json)}
    {runtime : ComposeRuntime} (h : validateCompose host members = some runtime) :
    RuntimeAccepted host (.compose runtime) := by
  rw [validateCompose] at h
  split_ifs at h with hfields
  obtain ⟨workingDir, hdir, h⟩ := Option.bind_eq_some_iff.mp h
  obtain ⟨composeFile, hfile, h⟩ := Option.bind_eq_some_iff.mp h
  obtain ⟨name, hname, h⟩ := Option.bind_eq_some_iff.mp h
  split_ifs at h with hpart
  cases h
  refine ⟨?_, ?_, ?_⟩
  · exact required_accepted (P := fun path => host.resolve path.text = some path) hdir
      fun value => absoluteWorkingDirectory_accepted hresolve
  · exact optional_accepted (P := fun file => safeComposeFilename file = true) hfile (by decide)
      fun value => LaxMode.text_accepted
  · refine optional_accepted
      (P := fun name => ∀ text, name = some text → projectName text = true) hname
      (fun text hnone => by cases hnone) fun value hvalue text htext => ?_
    rw [htext] at hvalue
    exact nullable_accepted (P := fun text => projectName text = true) hvalue
      fun given => LaxMode.text_accepted

theorem validateRuntime_accepted (hresolve : host.ResolvesOnce) {value : Json} {runtime : Runtime}
    (h : validateRuntime host value = some runtime) : RuntimeAccepted host runtime := by
  unfold validateRuntime at h
  split at h
  · split at h
    · obtain ⟨process, hprocess, rfl⟩ := Option.map_eq_some_iff.mp h
      exact validateProcess_accepted hresolve hprocess
    · obtain ⟨compose, hcompose, rfl⟩ := Option.map_eq_some_iff.mp h
      exact validateCompose_accepted hresolve hcompose
    · cases h
  · cases h

theorem validatePorts_accepted {value : Json} {ports : List PortDefinition}
    (h : validatePorts host value = some ports) :
    (∀ port ∈ ports, PortAccepted host.tables port) ∧ ports.length ≤ 64 := by
  obtain ⟨given, hgiven, hchecked⟩ := Option.bind_eq_some_iff.mp h
  obtain ⟨rfl, hbounded⟩ := checked_eq_some.mp hchecked
  exact ⟨listOf_accepted hgiven fun value port => validatePort_accepted,
    of_decide_eq_true hbounded⟩

theorem validateTags_accepted {value : Json} {tags : List String}
    (h : validateTags host.lax value = some tags) :
    (∀ tag ∈ tags, tagText tag = true) ∧ tags.length ≤ 64 ∧ tags.Nodup := by
  obtain ⟨given, hgiven, h⟩ := Option.bind_eq_some_iff.mp h
  obtain ⟨given', -, hbounded⟩ := Option.bind_eq_some_iff.mp hgiven
  obtain ⟨rfl, hbounded⟩ := checked_eq_some.mp hbounded
  obtain ⟨given'', hchecked, rfl⟩ := Option.map_eq_some_iff.mp h
  obtain ⟨rfl, htags⟩ := checked_eq_some.mp hchecked
  refine ⟨fun tag htag => List.all_eq_true.mp htags tag (mem_firsts.mp htag), ?_, nodup_firsts _⟩
  exact (FirstOccurrences.firsts_sublist _).length_le.trans (of_decide_eq_true hbounded)

/-- **What the validators leave**: defaults, resolved paths, canonical addresses and distinct tags
satisfy the rules as the given values do. -/
theorem validateManifest_accepted (hresolve : host.ResolvesOnce) {raw : Json}
    {manifest : ApplicationManifest} (h : validateManifest host raw = some manifest) :
    ManifestAccepted host manifest := by
  cases raw with
  | obj members =>
    rw [validateManifest] at h
    split_ifs at h with hfields
    obtain ⟨version, -, h⟩ := Option.bind_eq_some_iff.mp h
    obtain ⟨id, -, h⟩ := Option.bind_eq_some_iff.mp h
    obtain ⟨name, hname, h⟩ := Option.bind_eq_some_iff.mp h
    obtain ⟨description, hdescription, h⟩ := Option.bind_eq_some_iff.mp h
    obtain ⟨enabled, -, h⟩ := Option.bind_eq_some_iff.mp h
    obtain ⟨runtime, hruntime, h⟩ := Option.bind_eq_some_iff.mp h
    obtain ⟨environment, -, h⟩ := Option.bind_eq_some_iff.mp h
    obtain ⟨ports, hports, h⟩ := Option.bind_eq_some_iff.mp h
    obtain ⟨tags, htags, h⟩ := Option.bind_eq_some_iff.mp h
    split_ifs at h with hunique
    cases h
    have hname : lengthBetween 1 200 name = true :=
      required_accepted (P := fun name => lengthBetween 1 200 name = true) hname
        fun value => LaxMode.text_accepted
    have hdescription : lengthBetween 0 4000 description = true :=
      optional_accepted (P := fun text => lengthBetween 0 4000 text = true) hdescription
        (by decide) fun value => LaxMode.text_accepted
    have hruntime : RuntimeAccepted host runtime :=
      required_accepted hruntime fun value => validateRuntime_accepted hresolve
    obtain ⟨hports, hportsBounded⟩ := optional_accepted
      (P := fun ports => (∀ port ∈ ports, PortAccepted host.tables port) ∧ ports.length ≤ 64)
      hports (by simp) fun value => validatePorts_accepted
    obtain ⟨htags, htagsBounded, hdistinct⟩ := optional_accepted
      (P := fun tags : List String =>
        (∀ tag ∈ tags, tagText tag = true) ∧ tags.length ≤ 64 ∧ tags.Nodup)
      htags (by simp) fun value => validateTags_accepted
    exact ⟨hname, hdescription, hruntime, hports, hportsBounded, htags, htagsBounded, hdistinct⟩
  | _ => cases h

end Accepted

/-! ### Manifests written -/

def runtimeMembers : Runtime → List (String × Json)
  | .process runtime =>
    [("type", .str "process"), ("working_dir", .str runtime.workingDir.text),
      ("command", .arr (runtime.command.map .str))]
  | .compose runtime =>
    [("type", .str "compose"), ("working_dir", .str runtime.workingDir.text),
      ("compose_file", .str runtime.composeFile),
      ("project_name", dumpNullable runtime.projectName)]

def manifestMembers (manifest : ApplicationManifest) : List (String × Json) :=
  [("version", .int 1), ("id", .str manifest.id), ("name", .str manifest.name),
    ("description", .str manifest.description), ("enabled", .bool manifest.enabled),
    ("runtime", .obj (runtimeMembers manifest.runtime)),
    ("environment", .obj (manifest.environment.entries.map fun entry => (entry.1, .str entry.2))),
    ("ports", .arr (manifest.ports.map dumpPort)), ("tags", .arr (manifest.tags.map .str))]

/-- `model_dump(mode="json")` of a manifest. -/
def dumpManifest (manifest : ApplicationManifest) : Json := .obj (manifestMembers manifest)

section Written

variable {host : SchemaHost}

theorem AbsolutePath.text_head (path : AbsolutePath) : path.text.toList.head? = some '/' := by
  rw [AbsolutePath.text, String.toList_append]
  rfl

theorem absoluteWorkingDirectory_text {path : AbsolutePath}
    (h : host.resolve path.text = some path) :
    absoluteWorkingDirectory host (.str path.text) = some path := by
  rw [absoluteWorkingDirectory, host.lax.str_str, Option.bind_some, if_pos path.text_head, h]

theorem validateProcess_dump {runtime : ProcessRuntime}
    (h : host.resolve runtime.workingDir.text = some runtime.workingDir) :
    validateProcess host (runtimeMembers (.process runtime)) = some runtime := by
  have hdir : member? (runtimeMembers (.process runtime)) "working_dir" =
    some (.str runtime.workingDir.text) := rfl
  have hcommand : member? (runtimeMembers (.process runtime)) "command" =
    some (.arr (runtime.command.map .str)) := rfl
  have hguard : (!onlyFields processFields (runtimeMembers (.process runtime))) = false := rfl
  rw [validateProcess, hguard, if_neg Bool.false_ne_true, required_of_member hdir,
    required_of_member hcommand, absoluteWorkingDirectory_text h,
    listOf_dump fun argument _ => host.lax.str_str argument]
  show safeArgumentVector runtime.workingDir runtime.command = some runtime
  rw [safeArgumentVector, dif_pos runtime.command_nonempty, dif_pos ⟨runtime.command_bounded,
    runtime.safeArgumentVector, runtime.absoluteExecutable⟩]

theorem validateCompose_dump {runtime : ComposeRuntime} (h : RuntimeAccepted host (.compose runtime)) :
    validateCompose host (runtimeMembers (.compose runtime)) = some runtime := by
  obtain ⟨hresolved, hfile, hname⟩ := h
  have hdir : member? (runtimeMembers (.compose runtime)) "working_dir" =
    some (.str runtime.workingDir.text) := rfl
  have hfileMember : member? (runtimeMembers (.compose runtime)) "compose_file" =
    some (.str runtime.composeFile) := rfl
  have hnameMember : member? (runtimeMembers (.compose runtime)) "project_name" =
    some (dumpNullable runtime.projectName) := rfl
  have hguard : (!onlyFields composeFields (runtimeMembers (.compose runtime))) = false := rfl
  have hread : nullable (host.lax.text projectName) (dumpNullable runtime.projectName) =
      some runtime.projectName :=
    nullable_dump fun text htext => host.lax.text_str (hname text htext)
  rw [validateCompose, hguard, if_neg Bool.false_ne_true, required_of_member hdir,
    optional_of_member hfileMember, optional_of_member hnameMember,
    absoluteWorkingDirectory_text hresolved, host.lax.text_str hfile, hread]
  exact dif_pos runtime.safeComposeFilename

theorem validateRuntime_dump {runtime : Runtime} (h : RuntimeAccepted host runtime) :
    validateRuntime host (.obj (runtimeMembers runtime)) = some runtime := by
  cases runtime with
  | process runtime =>
    have htype : member? (runtimeMembers (.process runtime)) "type" =
      some (.str "process") := rfl
    rw [validateRuntime, htype]
    exact congrArg (Option.map Runtime.process) (validateProcess_dump h)
  | compose runtime =>
    have htype : member? (runtimeMembers (.compose runtime)) "type" =
      some (.str "compose") := rfl
    rw [validateRuntime, htype]
    exact congrArg (Option.map Runtime.compose) (validateCompose_dump h)

/-- An environment of texts is left to its validator. -/
theorem validateEnvironment_texts (lax : LaxMode) (entries : List (String × String)) :
    validateEnvironment lax (.obj (entries.map fun entry => (entry.1, .str entry.2))) =
      validEnvironmentNames entries := by
  have hentries (entries : List (String × String)) :
      (entries.map fun entry => (entry.1, Json.str entry.2)).mapM
        (fun m => (lax.str m.2).map (m.1, ·)) = some entries := by
    induction entries with
    | nil => rfl
    | cons entry entries ih =>
      rw [List.map_cons, List.mapM_cons, lax.str_str, ih]
      rfl
  rw [validateEnvironment, hentries, Option.bind_some]

theorem validateEnvironment_dump (lax : LaxMode) (environment : Environment) :
    validateEnvironment lax
      (.obj (environment.entries.map fun entry => (entry.1, .str entry.2))) =
      some environment := by
  rw [validateEnvironment_texts, validEnvironmentNames,
    dif_pos ⟨environment.distinct, environment.validNames, environment.safeValues⟩]

theorem validatePorts_dump {ports : List PortDefinition}
    (h : ∀ port ∈ ports, PortAccepted host.tables port) (hbounded : ports.length ≤ 64) :
    validatePorts host (.arr (ports.map dumpPort)) = some ports := by
  rw [validatePorts, listOf_dump fun port hport => validatePort_dump host.lax (h port hport)]
  exact checked_eq_some.mpr ⟨rfl, decide_eq_true hbounded⟩

theorem validateTags_dump (lax : LaxMode) {tags : List String}
    (h : ∀ tag ∈ tags, tagText tag = true) (hbounded : tags.length ≤ 64) (hdistinct : tags.Nodup) :
    validateTags lax (.arr (tags.map .str)) = some tags := by
  have hatMost : checked (atMost 64) tags = some tags :=
    checked_eq_some.mpr ⟨rfl, decide_eq_true hbounded⟩
  have htags : checked (fun tags : List String => tags.all tagText) tags = some tags :=
    checked_eq_some.mpr ⟨rfl, List.all_eq_true.mpr h⟩
  rw [validateTags, listOf_dump fun tag _ => lax.str_str tag, Option.bind_some, hatMost,
    Option.bind_some, htags, Option.map_some, firsts_of_nodup hdistinct]

/-- **A manifest that has been accepted is accepted as it was written.** -/
theorem validateManifest_dump {manifest : ApplicationManifest} (h : ManifestAccepted host manifest) :
    validateManifest host (dumpManifest manifest) = some manifest := by
  have hguard : (!onlyFields manifestFields (manifestMembers manifest)) = false := rfl
  have hversion : member? (manifestMembers manifest) "version" = some (.int 1) := rfl
  have hid : member? (manifestMembers manifest) "id" = some (.str manifest.id) := rfl
  have hname : member? (manifestMembers manifest) "name" = some (.str manifest.name) := rfl
  have hdescription : member? (manifestMembers manifest) "description" =
    some (.str manifest.description) := rfl
  have henabled : member? (manifestMembers manifest) "enabled" =
    some (.bool manifest.enabled) := rfl
  have hruntime : member? (manifestMembers manifest) "runtime" =
    some (.obj (runtimeMembers manifest.runtime)) := rfl
  have henvironment : member? (manifestMembers manifest) "environment" = some (.obj
    (manifest.environment.entries.map fun entry => (entry.1, .str entry.2))) := rfl
  have hports : member? (manifestMembers manifest) "ports" =
    some (.arr (manifest.ports.map dumpPort)) := rfl
  have htags : member? (manifestMembers manifest) "tags" =
    some (.arr (manifest.tags.map .str)) := rfl
  have hone : checked host.lax.literalOne (.int 1) = some (.int 1) :=
    checked_eq_some.mpr ⟨rfl, host.lax.literalOne_one⟩
  rw [dumpManifest, validateManifest, hguard, if_neg Bool.false_ne_true,
    optional_of_member hversion, required_of_member hid, required_of_member hname,
    optional_of_member hdescription, optional_of_member henabled, required_of_member hruntime,
    optional_of_member henvironment, optional_of_member hports, optional_of_member htags, hone,
    host.lax.text_str manifest.validApplicationId, host.lax.text_str h.name,
    host.lax.text_str h.description, host.lax.bool_bool, validateRuntime_dump h.runtime,
    validateEnvironment_dump, validatePorts_dump h.ports h.ports_bounded,
    validateTags_dump host.lax h.tags h.tags_bounded h.tags_distinct]
  exact dif_pos ⟨manifest.validApplicationId, manifest.uniquePortIds, manifest.uniqueHostPorts,
    manifest.onePrimary⟩

end Written

/-! ### Stored manifests -/

/-- `yaml.safe_dump(..., sort_keys=False)` and `yaml.safe_load`, which may raise. -/
structure YamlText where
  safeDump : Json → String
  safeLoad : String → Option Json

/-- `_serialize_manifest`. -/
def serializeManifest (yaml : YamlText) (manifest : ApplicationManifest) : String :=
  yaml.safeDump (dumpManifest manifest)

/-- `ApplicationManifest.model_validate(yaml.safe_load(text))`. -/
def loadManifest (host : SchemaHost) (yaml : YamlText) (text : String) :
    Option ApplicationManifest :=
  (yaml.safeLoad text).bind (validateManifest host)

/-- The pair that the services read and write manifests with. -/
def manifestYaml (host : SchemaHost) (yaml : YamlText) : Lifecycle.ManifestYaml where
  dump := serializeManifest yaml
  load := loadManifest host yaml

/-- **Stored manifests reload unchanged.**  Of any input that is accepted, the text that is stored
is accepted and gives an equal manifest, whose text is the same. -/
theorem reload_unchanged {host : SchemaHost} {yaml : YamlText} (hresolve : host.ResolvesOnce)
    {raw : Json} {manifest : ApplicationManifest} (h : validateManifest host raw = some manifest)
    (hyaml : yaml.safeLoad (yaml.safeDump (dumpManifest manifest)) = some (dumpManifest manifest)) :
    ∃ manifest', loadManifest host yaml (serializeManifest yaml manifest) = some manifest' ∧
      manifest' = manifest ∧ serializeManifest yaml manifest' = serializeManifest yaml manifest := by
  refine ⟨manifest, ?_, rfl, rfl⟩
  have haccepted := validateManifest_accepted hresolve h
  rw [loadManifest, serializeManifest, hyaml]
  exact validateManifest_dump haccepted

/-! ### An input of an earlier version -/

/-- A file system with one directory and no links. -/
def ollamaSchemaHost : SchemaHost where
  lax := jsonScalars
  tables := ⟨id, id⟩
  resolve text := if text = "/srv/ollama" ∨ text = "/srv/./ollama" then some ollamaDir else none

theorem ollamaSchemaHost_resolvesOnce : ollamaSchemaHost.ResolvesOnce := by
  intro text path h
  have hpath : ollamaDir = path := (Option.ite_none_right_eq_some.mp h).2 |> Option.some.inj
  rw [← hpath]
  rfl

/-- With the old name of the host port, an address in full and a tag that occurs twice. -/
def legacyInput : Json :=
  .obj [("id", .str "ollama"), ("name", .str "Ollama"),
    ("runtime", .obj [("type", .str "process"), ("working_dir", .str "/srv/./ollama"),
      ("command", .arr [.str "/srv/ollama/ollama", .str "serve"])]),
    ("ports", .arr [.obj [("id", .str "api"), ("name", .str "API"), ("host", .int 11434),
      ("bind_address", .str "0:0:0:0:0:0:0:1")]]),
    ("tags", .arr [.str "llm", .str "llm"])]

theorem ollamaPort_range : 1 ≤ 11434 ∧ 11434 ≤ 65535 := by decide

theorem ollamaId_valid : applicationId "ollama" = true := by decide

def legacyOllama : ApplicationManifest where
  id := "ollama"
  name := "Ollama"
  runtime := ollama.runtime
  ports := [{ id := "api", name := "API", hostPort := 11434, bindAddress := "::1", path := some "/",
              hostPort_range := ollamaPort_range }]
  tags := ["llm"]
  validApplicationId := ollamaId_valid
  uniquePortIds := by decide
  uniqueHostPorts := by decide
  onePrimary := by decide

def legacyText : String :=
  "version: 1\nid: ollama\nname: Ollama\ndescription: ''\nenabled: true\nruntime:\n" ++
  "  type: process\n  working_dir: /srv/ollama\n  command:\n  - /srv/ollama/ollama\n  - serve\n" ++
  "environment: \x7b\x7d\nports:\n- id: api\n  name: API\n  protocol: http\n  host_port: 11434\n" ++
  "  bind_address: ::1\n  path: /\n  primary: false\n  open_in_browser: false\n" ++
  "  health_path: null\ntags:\n- llm\n"

def legacyYaml : YamlText where
  safeDump _ := legacyText
  safeLoad text := if text = legacyText then some (dumpManifest legacyOllama) else none

set_option maxRecDepth 4000 in
theorem validateManifest_legacy :
    validateManifest ollamaSchemaHost legacyInput = some legacyOllama := by
  rfl

theorem legacyYaml_load :
    legacyYaml.safeLoad (legacyYaml.safeDump (dumpManifest legacyOllama)) =
      some (dumpManifest legacyOllama) := by
  simp only [legacyYaml, if_true]

theorem reload_unchanged_legacy :
    ∃ manifest', loadManifest ollamaSchemaHost legacyYaml
        (serializeManifest legacyYaml legacyOllama) = some manifest' ∧
      manifest' = legacyOllama ∧
      serializeManifest legacyYaml manifest' = serializeManifest legacyYaml legacyOllama :=
  reload_unchanged ollamaSchemaHost_resolvesOnce validateManifest_legacy legacyYaml_load

end MachineDeck

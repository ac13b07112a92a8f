import MachineDeck.ManifestInput
import MachineDeck.ScriptText
import MachineDeck.UnitInstall

/-!
# The form of an application

The edit form of `frontend/app.js`, whose fields return the values assigned to them.

* `ApplicationForm`, `PortRow` — the values of the fields;
* `addPortRow`, `openApplicationForm` — the form on a manifest;
* `parseEnvironment`, `collectPorts`, `collectManifest` — the payload of a form.
-/

namespace MachineDeck.Frontend

open JsonText (Json)
open LineText (partitionChars)
open ScriptText (splitCommas splitLines trim)
open Systemd (assign)

/-- `Number`, which is null in a payload where a text is no number. -/
structure Numbers where
  number : String → Json
  digits : ∀ n : ℕ, number (toString n) = .int n

/-- A row of the list of ports. -/
structure PortRow where
  id : String := ""
  name : String := ""
  protocol : String := "http"
  hostPort : String := ""
  bindAddress : String := ""
  path : String := ""
  primary : Bool := false
  openInBrowser : Bool := false
  deriving DecidableEq

/-- The fields, with their values after a reset. -/
structure ApplicationForm where
  id : String := ""
  name : String := ""
  description : String := ""
  enabled : Bool := true
  runtime : String := "process"
  workingDir : String := ""
  command : String := ""
  composeFile : String := "compose.yaml"
  projectName : String := ""
  environment : String := ""
  tags : String := ""
  ports : List PortRow := []
  deriving DecidableEq

/-! ### Opening the form -/

def addPortRow (port : PortDefinition) : PortRow where
  id := port.id
  name := port.name
  protocol := port.protocol.text
  hostPort := toString port.hostPort
  bindAddress := if port.bindAddress = "" then "127.0.0.1" else port.bindAddress
  path := port.path.getD ""
  primary := port.primary
  openInBrowser := port.openInBrowser

/-- `openApplicationForm` of an application. -/
def openApplicationForm (manifest : ApplicationManifest) : ApplicationForm :=
  let form : ApplicationForm := {
    id := manifest.id
    name := manifest.name
    description := manifest.description
    enabled := manifest.enabled
    runtime := manifest.runtime.type
    workingDir := manifest.runtime.workingDir.text
    environment := "\n".intercalate (manifest.environment.entries.map fun entry =>
      entry.1 ++ "=" ++ entry.2)
    tags := ", ".intercalate manifest.tags
    ports := manifest.ports.map addPortRow }
  match manifest.runtime with
  | .process runtime => { form with command := "\n".intercalate runtime.command }
  | .compose runtime =>
    { form with composeFile := runtime.composeFile, projectName := runtime.projectName.getD "" }

/-! ### Collecting the manifest -/

def trimText (value : String) : String := String.ofList (trim value.toList)

def lines (value : String) : List String := (splitLines value.toList).map String.ofList

/-- The part before the first sign of equality, and the one behind it. -/
def parseEntry (line : String) : Except String (String × String) :=
  match partitionChars '=' line.toList with
  | (c :: name, some value) => .ok (trimText (String.ofList (c :: name)), String.ofList value)
  | _ => .error s!"Environment entry must use NAME=value: {line}"

def parseEnvironment (value : String) : Except String (List (String × String)) :=
  (lines value).foldlM
    (fun environment line => do
      let (name, value) ← parseEntry line
      return assign environment name value)
    []

/-- Zero, and what is no number. -/
def falsyNumber : Json → Bool
  | .int value => value == 0
  | .null => true
  | _ => false

def webProtocol (protocol : String) : Bool := protocol == "http" || protocol == "https"

def collectPort (numbers : Numbers) (row : PortRow) (index : ℕ) : Except String Json :=
  let id := trimText row.id
  let name := trimText row.name
  let hostPort := numbers.number row.hostPort
  let bindAddress := trimText row.bindAddress
  let path := trimText row.path
  if id = "" ∨ name = "" ∨ falsyNumber hostPort ∨ bindAddress = "" then
    .error s!"Port {index + 1} is incomplete."
  else
    let web := webProtocol row.protocol
    .ok (.obj ([("id", .str id), ("name", .str name), ("protocol", .str row.protocol),
      ("host_port", hostPort), ("bind_address", .str bindAddress),
      ("primary", .bool (web && row.primary)), ("open_in_browser", .bool (web && row.openInBrowser))]
      ++ if path ≠ "" ∧ web then [("path", .str path)] else []))

def collectPorts (numbers : Numbers) (rows : List PortRow) : Except String (List Json) :=
  rows.zipIdx.mapM fun row => collectPort numbers row.1 row.2

/-- The member `runtime` of a payload. -/
def collectRuntime (form : ApplicationForm) : Json :=
  let workingDir := trimText form.workingDir
  if form.runtime = "process" then
    .obj [("type", .str "process"), ("working_dir", .str workingDir),
      ("command", .arr ((lines form.command).map .str))]
  else
    let composeFile := trimText form.composeFile
    let projectName := trimText form.projectName
    .obj ([("type", .str "compose"), ("working_dir", .str workingDir),
      ("compose_file", .str (if composeFile = "" then "compose.yaml" else composeFile))] ++
      if form.runtime = "compose" ∧ projectName ≠ "" then [("project_name", .str projectName)]
      else [])

/-- The payload, or the message of the error that is thrown. -/
def collectManifest (numbers : Numbers) (form : ApplicationForm) : Except String Json := do
  let environment ← parseEnvironment form.environment
  let ports ← collectPorts numbers form.ports
  return .obj [("version", .int 1), ("id", .str (trimText form.id)),
    ("name", .str (trimText form.name)), ("description", .str (trimText form.description)),
    ("enabled", .bool form.enabled), ("runtime", collectRuntime form),
    ("environment", .obj (environment.map fun entry => (entry.1, .str entry.2))),
    ("ports", .arr ports),
    ("tags", .arr ((splitCommas form.tags.toList).map fun tag => .str (String.ofList tag)))]

end MachineDeck.Frontend

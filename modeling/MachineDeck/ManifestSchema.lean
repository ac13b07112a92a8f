import Mathlib.Data.Nat.Notation
import Mathlib.Data.List.Nodup

/-!
# Application manifests

The models of `schemas/applications.py`.  A manifest that the API has accepted satisfies its
validators, so the structures below carry what the validators check as fields.

* `AbsolutePath` — what `Path.resolve` returns;
* `ProcessRuntime`, `ComposeRuntime`, `Environment`, `PortDefinition`, `ApplicationManifest`;
* `validateManifestPaths` — the checks against the settings and the file system, which are made
  again before every lifecycle action.
-/

namespace MachineDeck

/-! ### Paths -/

/-- One component of a resolved path. -/
def PathPart (part : String) : Prop :=
  part ≠ "" ∧ part ≠ "." ∧ part ≠ ".." ∧ '/' ∉ part.toList

instance (part : String) : Decidable (PathPart part) :=
  inferInstanceAs (Decidable (_ ∧ _ ∧ _ ∧ _))

/-- An absolute path as `Path.resolve` returns it. -/
structure AbsolutePath where
  parts : List String
  resolved : ∀ part ∈ parts, PathPart part
  deriving DecidableEq

/-- `str(path)`. -/
def AbsolutePath.text (path : AbsolutePath) : String :=
  "/" ++ "/".intercalate path.parts

/-- `path == root or path.is_relative_to(root)`. -/
def AbsolutePath.isRelativeTo (path root : AbsolutePath) : Bool :=
  root.parts.isPrefixOf path.parts

/-- `path / name`. -/
def AbsolutePath.join (path : AbsolutePath) (name : String) (h : PathPart name) : AbsolutePath where
  parts := path.parts ++ [name]
  resolved part hpart := by
    rcases List.mem_append.mp hpart with hpart | hpart
    · exact path.resolved part hpart
    · rw [List.mem_singleton.mp hpart]
      exact h

/-! ### Runtimes -/

/-- The runtime of a process application; the fields after the data are its validators. -/
structure ProcessRuntime where
  workingDir : AbsolutePath
  command : List String
  command_nonempty : command ≠ []
  command_bounded : command.length ≤ 128
  safeArgumentVector : ∀ argument ∈ command, argument ≠ "" ∧ '\x00' ∉ argument.toList
  absoluteExecutable : (command.head command_nonempty).toList.head? = some '/'
  deriving DecidableEq

structure ComposeRuntime where
  workingDir : AbsolutePath
  composeFile : String := "compose.yaml"
  projectName : Option String := none
  safeComposeFilename : PathPart composeFile
  deriving DecidableEq

inductive Runtime where
  | process (runtime : ProcessRuntime)
  | compose (runtime : ComposeRuntime)
  deriving DecidableEq

/-- `runtime.type`. -/
def Runtime.type : Runtime → String
  | .process _ => "process"
  | .compose _ => "compose"

def Runtime.workingDir : Runtime → AbsolutePath
  | .process runtime => runtime.workingDir
  | .compose runtime => runtime.workingDir

/-! ### Environment -/

def upperOrUnderscore (c : Char) : Bool :=
  'A' ≤ c && c ≤ 'Z' || c == '_'

def asciiDigit (c : Char) : Bool :=
  '0' ≤ c && c ≤ '9'

/-- `ENVIRONMENT_NAME_PATTERN.fullmatch`. -/
def environmentName (name : String) : Bool :=
  match name.toList with
  | [] => false
  | c :: cs => upperOrUnderscore c && cs.all fun d => upperOrUnderscore d || asciiDigit d

/-- A character that an environment value may have. -/
def environmentChar (c : Char) : Bool :=
  c != '\n' && c != '\r' && c != '\x00'

/-- The `environment` mapping of a manifest, in the order of its text. -/
structure Environment where
  entries : List (String × String)
  distinct : (entries.map Prod.fst).Nodup
  validNames : ∀ entry ∈ entries, environmentName entry.1 = true
  safeValues : ∀ entry ∈ entries, entry.2.toList.all environmentChar = true
  deriving DecidableEq

instance : EmptyCollection Environment :=
  ⟨⟨[], List.nodup_nil, by simp, by simp⟩⟩

/-! ### Manifests -/

inductive PortProtocol where
  | http | https | tcp | udp
  deriving DecidableEq, Repr

/-- `protocol in {"http", "https"}`. -/
def PortProtocol.isWeb : PortProtocol → Bool
  | .http | .https => true
  | .tcp | .udp => false

structure PortDefinition where
  id : String
  name : String
  protocol : PortProtocol := .http
  hostPort : ℕ
  bindAddress : String := "127.0.0.1"
  path : Option String := none
  primary : Bool := false
  openInBrowser : Bool := false
  healthPath : Option String := none
  hostPort_range : 1 ≤ hostPort ∧ hostPort ≤ 65535
  deriving DecidableEq

def lowerOrDigit (c : Char) : Bool :=
  'a' ≤ c && c ≤ 'z' || asciiDigit c

/-- `APP_ID_PATTERN.fullmatch`. -/
def applicationId (id : String) : Bool :=
  let cs := id.toList
  1 ≤ cs.length && cs.length ≤ 64 && cs.all (fun c => lowerOrDigit c || c == '-') &&
    cs.head?.any lowerOrDigit && cs.getLast?.any lowerOrDigit

/-- A validated manifest.  Its version is the constant 1. -/
structure ApplicationManifest where
  id : String
  name : String
  description : String := ""
  enabled : Bool := true
  runtime : Runtime
  environment : Environment := ∅
  ports : List PortDefinition := []
  tags : List String := []
  validApplicationId : applicationId id = true
  uniquePortIds : (ports.map PortDefinition.id).Nodup
  uniqueHostPorts : (ports.map PortDefinition.hostPort).Nodup
  onePrimary : (ports.filter fun port => port.primary && port.protocol.isWeb).length ≤ 1
  deriving DecidableEq

/-! ### Checks against the host -/

structure ValidationIssue where
  field : String
  code : String
  message : String
  deriving DecidableEq, Repr

structure ValidationResponse where
  errors : List ValidationIssue
  warnings : List ValidationIssue
  deriving DecidableEq, Repr

def ValidationResponse.valid (response : ValidationResponse) : Bool :=
  response.errors.isEmpty

/-- What `validate_manifest_paths` reads from the settings and from the file system. -/
structure HostPaths where
  allowedRoots : List AbsolutePath
  allowPrivilegedPorts : Bool := false
  resolve : String → AbsolutePath
  isDir : AbsolutePath → Bool
  isFile : AbsolutePath → Bool

def HostPaths.allowed (host : HostPaths) (path : AbsolutePath) : Bool :=
  host.allowedRoots.any path.isRelativeTo

def privilegedPortIssues (host : HostPaths) (manifest : ApplicationManifest) :
    List ValidationIssue :=
  if host.allowPrivilegedPorts then []
  else
    manifest.ports.zipIdx.filterMap fun (port, index) =>
      if port.hostPort < 1024 then
        some {
          field := s!"ports[{index}].host_port"
          code := "PRIVILEGED_PORT_NOT_ALLOWED"
          message := "Ports below 1024 require an explicit host policy opt-in." }
      else none

def workingDirIssues (host : HostPaths) (runtime : Runtime) : List ValidationIssue :=
  if !host.allowed runtime.workingDir then
    [{ field := "runtime.working_dir"
       code := "PATH_NOT_ALLOWED"
       message := "Working directory is outside configured allowed roots." }]
  else if !host.isDir runtime.workingDir then
    [{ field := "runtime.working_dir"
       code := "WORKING_DIR_NOT_FOUND"
       message := "Working directory does not exist." }]
  else []

/-- The executable of a process, the Compose file of a Compose application. -/
def runtimeIssues (host : HostPaths) : Runtime → List ValidationIssue
  | .process runtime =>
    let executable := host.resolve (runtime.command.head runtime.command_nonempty)
    if !host.allowed executable then
      [{ field := "runtime.command[0]"
         code := "PATH_NOT_ALLOWED"
         message := "Executable is outside configured allowed roots." }]
    else if !host.isFile executable then
      [{ field := "runtime.command[0]"
         code := "EXECUTABLE_NOT_FOUND"
         message := "Executable does not exist." }]
    else []
  | .compose runtime =>
    if !host.isFile (runtime.workingDir.join runtime.composeFile runtime.safeComposeFilename) then
      [{ field := "runtime.compose_file"
         code := "FILE_NOT_FOUND"
         message := "Compose file does not exist." }]
    else []

def environmentWarnings (environment : Environment) : List ValidationIssue :=
  if environment.entries.isEmpty then []
  else
    [{ field := "environment"
       code := "SECRETS_NOT_CLASSIFIED"
       message := "Environment values are stored as configuration; do not include " ++
         "unprotected secrets." }]

def validateManifestPaths (host : HostPaths) (manifest : ApplicationManifest) :
    ValidationResponse where
  errors := privilegedPortIssues host manifest ++ workingDirIssues host manifest.runtime ++
    runtimeIssues host manifest.runtime
  warnings := environmentWarnings manifest.environment

/-! ### A manifest -/

def ollamaDir : AbsolutePath := ⟨["srv", "ollama"], by decide⟩

def ollamaExecutable : AbsolutePath := ollamaDir.join "ollama" (by decide)

/-- The manifest that the examples of this development use. -/
def ollama : ApplicationManifest where
  id := "ollama"
  name := "Ollama"
  runtime := .process {
    workingDir := ollamaDir
    command := ["/srv/ollama/ollama", "serve"]
    command_nonempty := by decide
    command_bounded := by decide
    safeArgumentVector := by decide
    absoluteExecutable := by decide }
  ports := [{ id := "api", name := "API", hostPort := 11434, path := some "/",
              hostPort_range := by decide }]
  validApplicationId := by decide
  uniquePortIds := by decide
  uniqueHostPorts := by decide
  onePrimary := by decide

/-- A host with one allowed root, on which the application is installed. -/
def ollamaHost : HostPaths where
  allowedRoots := [⟨["srv"], by decide⟩]
  resolve _ := ollamaExecutable
  isDir path := path = ollamaDir
  isFile path := path = ollamaExecutable

example : (validateManifestPaths ollamaHost ollama).valid = true := by decide

end MachineDeck

import Mathlib
import MachineDeck.LifecycleService
import MachineDeck.UnitRender

/-!
# Installing user units

`UserUnitManager` and `UnitInstallReceipt` of `systemd/user_units.py`, and `UserSystemdAdapter` of
`adapters/runtime.py`.

* `UnitHost` — the unit directory and what systemd has in memory;
* `UserUnitManager.install`, `UnitInstallReceipt.rollback`, `UserUnitManager.consistency`;
* `UserSystemdAdapter.installAndAction` — a start or a restart, with the answers that `Outcomes`
  gives to the commands it runs.

systemd's in-memory definition of a unit becomes the content of its file when a daemon-reload
succeeds, and at no other moment.  Operations on files succeed.
-/

namespace MachineDeck.Systemd

open ProgramTriple LineText
open MachineDeck.Lifecycle (AdapterResult RuntimeState)

/-! ### Files and units -/

/-- An entry of the unit directory, as `lstat` shows it. -/
inductive Entry where
  | regular (content : ByteArray) (owned writable : Bool)
  | symlink
  | irregular
  deriving DecidableEq

structure Directory where
  symlink : Bool := false
  owned : Bool := true
  writable : Bool := false
  entries : Finmap fun _ : String => Entry

structure UnitHost where
  directory : Option Directory
  /-- The definitions that systemd has in memory. -/
  loaded : String → Option ByteArray
  /-- Every start and restart of a unit that succeeded, with the definition that was run. -/
  started : List (String × Option ByteArray) := []

namespace UnitHost

def entry (host : UnitHost) (name : String) : Option Entry :=
  host.directory.bind fun directory => directory.entries.lookup name

/-- The content of the file of a unit. -/
def content (host : UnitHost) (name : String) : Option ByteArray :=
  match host.entry name with
  | some (.regular content _ _) => some content
  | _ => none

def names (host : UnitHost) : Finset String :=
  (host.directory.map fun directory => directory.entries.keys).getD ∅

def onEntries (host : UnitHost)
    (f : (Finmap fun _ : String => Entry) → Finmap fun _ : String => Entry) : UnitHost :=
  { host with
    directory := host.directory.map fun directory =>
      { directory with entries := f directory.entries } }

def put (host : UnitHost) (name : String) (entry : Entry) : UnitHost :=
  host.onEntries fun entries => entries.insert name entry

def remove (host : UnitHost) (name : String) : UnitHost :=
  host.onEntries fun entries => entries.erase name

/-- `mkdir(exist_ok=True)`. -/
def mkdir (host : UnitHost) : UnitHost :=
  { host with directory := some (host.directory.getD { entries := ∅ }) }

/-- Every definition is read again. -/
def reloaded (host : UnitHost) : UnitHost := { host with loaded := host.content }

/-- The unit is run as it is defined in memory. -/
def run (host : UnitHost) (unit : String) : UnitHost :=
  { host with started := host.started ++ [(unit, host.loaded unit)] }

end UnitHost

/-- The exceptions of the module that are caught in it. -/
inductive Raised where
  | unitError (message : String)
  | fileNotFound
  deriving DecidableEq, Repr

abbrev UnitProgram := EStateM Raised UnitHost

/-- A check that raises a `UnitError`. -/
def check (condition : Bool) (message : String) : UnitProgram Unit :=
  if condition then pure () else throw (.unitError message)

def lift {α : Type} : Except UnitError α → UnitProgram α
  | .ok a => pure a
  | .error e => throw (.unitError e.message)

/-- `message or fallback`. -/
def orElse (message fallback : String) : String :=
  if message.isEmpty then fallback else message

/-! ### Temporary files -/

/-- How `tempfile` chooses the middle of a name that no entry has. -/
structure Tempfile where
  token : String → String → Finset String → String
  unused : ∀ start suffix taken, start ++ token start suffix taken ++ suffix ∉ taken

/-- `os.replace(temporary, target)`. -/
def UnitHost.replace (host : UnitHost) (temporary target : String) : UnitHost :=
  match host.entry temporary with
  | some entry => (host.remove temporary).put target entry
  | none => host

structure UserUnitManager where
  unitDir : String
  paths : HostPaths
  tempfile : Tempfile

namespace UserUnitManager

/-- `mkstemp`, with the mode and the content that the file is given. -/
def writeTemporary (manager : UserUnitManager) (start suffix : String) (content : ByteArray) :
    UnitProgram String := do
  let name := start ++ manager.tempfile.token start suffix (← get).names ++ suffix
  modify fun host => host.put name (.regular content true false)
  return name

def unlink (name : String) : UnitProgram Unit := modify fun host => host.remove name

def atomicReplace (manager : UserUnitManager) (target : String) (content : ByteArray) :
    UnitProgram Unit := do
  let temporary ← manager.writeTemporary ("." ++ target ++ ".") ".tmp" content
  modify fun host => host.replace temporary target
  unlink temporary

/-! ### Checks of the directory and of the target -/

def trustedDirectory (manager : UserUnitManager) (create : Bool) : UnitProgram Unit := do
  modify fun host => if create then host.mkdir else host
  match (← get).directory with
  | none => throw (.unitError ("User unit directory does not exist: " ++ manager.unitDir))
  | some directory =>
    check (!directory.symlink) "User unit directory must be a real directory, not a symlink"
    check directory.owned "User unit directory must be owned by the MachineDeck user"
    check (!directory.writable) "User unit directory cannot be group- or world-writable"

def targetPath (manager : UserUnitManager) (applicationId : String) (create : Bool) :
    UnitProgram String := do
  manager.trustedDirectory create
  let target ← lift (unitNameFor applicationId)
  match (← get).entry target with
  | none => return target
  | some (.regular _ owned writable) =>
    check (owned && !writable) "Managed unit target has unsafe ownership or write permissions"
    return target
  | some _ => throw (.unitError "Managed unit target must be a regular file, not a symlink")

def readRegular (target : String) : UnitProgram ByteArray := do
  match (← get).entry target with
  | none => throw .fileNotFound
  | some .symlink => throw (.unitError
    ("Cannot safely read managed unit: [Errno 40] Too many levels of symbolic links: '" ++
      target ++ "'"))
  | some .irregular => throw (.unitError "Managed unit target must remain a regular file")
  | some (.regular content _ _) =>
    check (content.size ≤ maxUnitBytes) "Existing managed unit exceeds the maximum size"
    return content

end UserUnitManager

/-! ### Commands -/

/-- How the commands of a call end, in the order in which they are run. -/
structure Outcomes where
  verify : AdapterResult
  reload : AdapterResult
  action : AdapterResult
  status : AdapterResult
  rollbackReload : AdapterResult
  restartAgain : AdapterResult

def daemonReload (outcome : AdapterResult) : UnitProgram AdapterResult := do
  modify fun host => if outcome.succeeded then host.reloaded else host
  return outcome

/-- `systemctl --user start` or `restart` of a unit. -/
def runAction (unit : String) (outcome : AdapterResult) : UnitProgram AdapterResult := do
  modify fun host => if outcome.succeeded then host.run unit else host
  return outcome

/-! ### Install and roll back -/

structure UnitInstallReceipt where
  manager : UserUnitManager
  target : String
  previousContent : Option ByteArray
  changed : Bool
  rolledBack : Bool := false

/-- The file becomes what it was. -/
def UnitInstallReceipt.restore (receipt : UnitInstallReceipt) : UnitProgram Unit :=
  match receipt.previousContent with
  | none => UserUnitManager.unlink receipt.target
  | some content => receipt.manager.atomicReplace receipt.target content

/-- The receipt after the call, which sets `rolled_back`. -/
def UnitInstallReceipt.rollback (receipt : UnitInstallReceipt) (outcome : AdapterResult) :
    UnitProgram UnitInstallReceipt :=
  if !receipt.changed || receipt.rolledBack then return receipt
  else do
    receipt.restore
    let _ ← daemonReload outcome
    return { receipt with rolledBack := true }

/-- `target.stem`. -/
def stem (target : String) : String :=
  String.ofList ((target.toList.reverse.dropWhile fun c => c != '.').drop 1).reverse

namespace UserUnitManager

/-- `_read_regular`, with `None` for a missing file. -/
def previousContent (target : String) : UnitProgram (Option ByteArray) :=
  tryCatch (do return some (← readRegular target)) fun
    | .fileNotFound => pure none
    | .unitError message => throw (.unitError message)

/-- The rest of `install` after `os.replace`. -/
def reloadInstalled (receipt : UnitInstallReceipt) (outcomes : Outcomes) :
    UnitProgram UnitInstallReceipt := do
  let reloaded ← daemonReload outcomes.reload
  if reloaded.succeeded then return receipt
  else
    let _ ← receipt.rollback outcomes.rollbackReload
    throw (.unitError (orElse reloaded.message "systemd user daemon-reload failed"))

/-- The rest of `install` when the content differs. -/
def replaceContent (manager : UserUnitManager) (target : String) (previous : Option ByteArray)
    (newContent : ByteArray) (outcomes : Outcomes) : UnitProgram UnitInstallReceipt := do
  let staged ← manager.writeTemporary ("." ++ stem target ++ ".") ".service" newContent
  let verified := outcomes.verify
  unlink staged
  check verified.succeeded (orElse verified.message "systemd-analyze rejected the rendered unit")
  manager.atomicReplace target newContent
  reloadInstalled { manager, target, previousContent := previous, changed := true } outcomes

def install (manager : UserUnitManager) (manifest : ApplicationManifest) (outcomes : Outcomes) :
    UnitProgram UnitInstallReceipt := do
  let rendered ← lift (renderUserUnit manager.paths manifest)
  let target ← manager.targetPath manifest.id true
  let newContent := rendered.toUTF8
  let previous ← previousContent target
  if previous = some newContent then
    return { manager, target, previousContent := previous, changed := false }
  else manager.replaceContent target previous newContent outcomes

end UserUnitManager

/-! ### Consistency -/

inductive UnitConsistency where
  | isMatch | isMissing | isMismatch | isUnsafe | notProcess
  deriving DecidableEq, Repr

structure UnitConsistencyResult where
  applicationId : String
  unitName : Option String
  status : UnitConsistency
  message : String := ""
  deriving DecidableEq, Repr

namespace UserUnitManager

/-- The comparison of the target with the expected content. -/
def compareContent (manifest : ApplicationManifest) (unitName target : String)
    (expected : ByteArray) : UnitProgram UnitConsistencyResult := do
  match (← get).entry target with
  | none => return { applicationId := manifest.id, unitName := some unitName, status := .isMissing }
  | some _ =>
    if (← readRegular target) = expected then
      return { applicationId := manifest.id, unitName := some unitName, status := .isMatch }
    else
      return { applicationId := manifest.id, unitName := some unitName, status := .isMismatch,
               message := "Unit content differs from the database manifest" }

def compareUnit (manager : UserUnitManager) (manifest : ApplicationManifest) (unitName : String) :
    UnitProgram UnitConsistencyResult := do
  let rendered ← lift (renderUserUnit manager.paths manifest)
  match (← get).directory with
  | none => return { applicationId := manifest.id, unitName := some unitName, status := .isMissing }
  | some _ =>
    let target ← manager.targetPath manifest.id false
    compareContent manifest unitName target rendered.toUTF8

def consistency (manager : UserUnitManager) (manifest : ApplicationManifest) :
    UnitProgram UnitConsistencyResult :=
  match manifest.runtime with
  | .compose _ =>
    return { applicationId := manifest.id, unitName := none, status := .notProcess }
  | .process _ => do
    let unitName ← lift (unitNameFor manifest.id)
    tryCatch (manager.compareUnit manifest unitName) fun
      | .unitError message =>
        return { applicationId := manifest.id, unitName := some unitName, status := .isUnsafe,
                 message }
      | .fileNotFound => throw .fileNotFound

end UserUnitManager

/-! ### The adapter -/

/-- `values[key] = value`. -/
def assign (values : List (String × String)) (key value : String) : List (String × String) :=
  if (values.lookup key).isSome then
    values.map fun item => if item.1 = key then (key, value) else item
  else values ++ [(key, value)]

/-- The properties that `systemctl show` printed. -/
def shownProperties (message : String) : List (String × String) :=
  (splitlines message).foldl
    (fun values line =>
      match partition line '=' with
      | (key, some value) => assign values key value
      | (_, none) => values)
    []

def activeStatus : Option String → ApplicationStatus
  | some "active" => .running
  | some "deactivating" => .stopping
  | some "activating" => .starting
  | some "inactive" => .stopped
  | some "failed" => .failed
  | _ => .unknown

/-- An adapter, which requires a process manifest. -/
structure UserSystemdAdapter where
  manifest : ApplicationManifest
  runtime : ProcessRuntime
  requiresProcess : manifest.runtime = .process runtime
  unitManager : UserUnitManager

inductive UnitAction where
  | start | restart
  deriving DecidableEq, Repr

def UnitAction.name : UnitAction → String
  | .start => "start"
  | .restart => "restart"

namespace UserSystemdAdapter

def unit (adapter : UserSystemdAdapter) : String :=
  "machinedeck-" ++ adapter.manifest.id ++ ".service"

/-- `status()`, from how `systemctl show` ended. -/
def status (adapter : UserSystemdAdapter) (outcome : AdapterResult) : RuntimeState :=
  if outcome.succeeded then
    { status := activeStatus ((shownProperties outcome.message).lookup "ActiveState")
      runtimeIdentifier := adapter.unit
      metadata := shownProperties outcome.message }
  else
    { status := .unknown
      runtimeIdentifier := adapter.unit
      errorMessage := some (orElse outcome.message "Unable to read systemd state") }

/-- The result of an action, once its command has ended and the status has been read. -/
def confirmed (adapter : UserSystemdAdapter) (action : UnitAction) (outcomes : Outcomes) :
    AdapterResult :=
  if outcomes.action.succeeded then
    let state := adapter.status outcomes.status
    if state.status = .running ∨ state.status = .starting then outcomes.action
    else
      { succeeded := false
        message := orElse (state.errorMessage.getD "")
          ("Unit entered " ++ state.status.value ++ " after " ++ action.name)
        exitCode := outcomes.action.exitCode
        errorCode := some "UNIT_START_FAILED" }
  else outcomes.action

/-- The part of `_install_and_action` after the installation. -/
def actAndConfirm (adapter : UserSystemdAdapter) (action : UnitAction)
    (receipt : UnitInstallReceipt) (outcomes : Outcomes) : UnitProgram AdapterResult := do
  let _ ← runAction adapter.unit outcomes.action
  let result := adapter.confirmed action outcomes
  if result.succeeded then return result
  else
    let _ ← receipt.rollback outcomes.rollbackReload
    if action = .restart ∧ receipt.changed = true ∧ receipt.previousContent.isSome = true then
      let _ ← runAction adapter.unit outcomes.restartAgain
      return result
    else return result

/-- `except UnitError`. -/
def attempt {α : Type} (program : UnitProgram α) : UnitProgram (Except String α) :=
  tryCatch (do return .ok (← program)) fun
    | .unitError message => pure (.error message)
    | .fileNotFound => throw .fileNotFound

def installAndAction (adapter : UserSystemdAdapter) (action : UnitAction) (outcomes : Outcomes) :
    UnitProgram AdapterResult := do
  match ← attempt (adapter.unitManager.install adapter.manifest outcomes) with
  | .error message =>
    return { succeeded := false, message, errorCode := some "UNIT_INSTALL_FAILED" }
  | .ok receipt => adapter.actAndConfirm action receipt outcomes

end UserSystemdAdapter

end MachineDeck.Systemd

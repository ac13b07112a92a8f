import MachineDeck.Deletions
import MachineDeck.FileTree

/-!
# The deployment script: `uninstall`

`uninstall` of `scripts/machinedeck_deploy.py` as a program over the files of the machine.

* `InstallPaths`, `Flags`, `Host` — what it is called with, and what it does not decide: who the
  user is, which commands cannot be run, and which entries the system does not let go;
* `unlink`, `rmtree`, `runCommand` — the operations, with the ways in which they stop;
* `isGeneratedApplicationUnit` — the test for a unit file that MachineDeck wrote;
* `uninstall`.

The commands are systemd's: what `systemctl` does to its own links is not in the model.
-/

namespace MachineDeck.Uninstall

open ProgramTriple

def serviceName : String := "machinedeck.service"

structure InstallPaths where
  share : EntryPath
  state : EntryPath
  configDir : EntryPath
  userUnitDir : EntryPath

def InstallPaths.unit (paths : InstallPaths) : EntryPath := paths.userUnitDir ++ [serviceName]

/-- Where `discover` puts them, from the three base directories. -/
def InstallPaths.discover (dataHome stateHome configHome : EntryPath) : InstallPaths where
  share := dataHome ++ ["machinedeck"]
  state := stateHome ++ ["machinedeck"]
  configDir := configHome ++ ["machinedeck"]
  userUnitDir := configHome ++ ["systemd", "user"]

structure Flags where
  purge : Bool
  removeManagedUnits : Bool
  yes : Bool

inductive Command where
  | disable
  | daemonReload
  | daemonReloadUnits
  deriving DecidableEq, Repr

structure Host where
  euid : ℕ
  /-- The command cannot be run, and not because it is not there. -/
  raises : Command → Bool
  /-- The system does not let the entry be removed. -/
  refuses : EntryPath → Bool
  /-- What is gone of a directory when its removal is refused somewhere. -/
  unfinished : EntryPath → EntryPath → Bool

/-- A `DeployError`, an `OSError`, or a call that waits and does not come back. -/
inductive Stop where
  | deployError (message : String)
  | osError
  | waits
  deriving DecidableEq, Repr

abbrev Program := EStateM Stop FileTree

/-! ### Operations -/

def pathText (path : EntryPath) : String := "/" ++ "/".intercalate path

def rejectRoot (host : Host) : Program Unit :=
  if host.euid = 0 then
    throw (.deployError "Do not install MachineDeck as root or through sudo")
  else pure ()

def ensureNotSymlink (path : EntryPath) (label : String) : Program Unit := do
  let tree ← get
  if tree.lookup path = some .symlink then
    throw (.deployError s!"Refusing unsafe symlink for {label}: {pathText path}")
  else pure ()

/-- `runner.run(..., check=False)`. -/
def runCommand (host : Host) (command : Command) : Program Unit :=
  if host.raises command then throw .osError else pure ()

/-- Something on the way to the path is no directory. -/
def obstructed (tree : FileTree) (path : EntryPath) : Bool :=
  path.dropLast.inits.any fun above =>
    match tree.lookup above with
    | none | some .directory => false
    | some _ => true

/-- `path.unlink(missing_ok=…)`. -/
def unlink (host : Host) (missingOk : Bool) (path : EntryPath) : Program Unit := do
  let tree ← get
  match tree.lookup path with
  | none => if missingOk && !obstructed tree path then pure () else throw .osError
  | some .directory => throw .osError
  | some _ =>
    if host.refuses path then throw .osError else modify fun tree => tree.without (· == path)

/-- `shutil.rmtree(path)`. -/
def rmtree (host : Host) (path : EntryPath) : Program Unit := do
  let tree ← get
  match tree.lookup path with
  | some .directory =>
    if tree.paths.any fun below => path.isPrefixOf below && host.refuses below then do
      modify fun tree => tree.without fun below =>
        path.isPrefixOf below && (host.unfinished path below && !host.refuses below)
      throw .osError
    else modify fun tree => tree.without path.isPrefixOf
  | _ => throw .osError

/-- `if path.exists(): shutil.rmtree(path)`. -/
def rmtreeExisting (host : Host) (path : EntryPath) : Program Unit := do
  let tree ← get
  if (tree.lookup path).isSome then rmtree host path else pure ()

/-! ### Managed units -/

/-- `glob("machinedeck-*.service")`, for one name. -/
def unitPattern (name : String) : Bool :=
  "machinedeck-".toList.isPrefixOf name.toList &&
    ".service".toList.isSuffixOf (name.toList.drop "machinedeck-".length)

def excludedUnits : List String := [serviceName, "machinedeck-phase0.service"]

def generatedHeader : String :=
  "# Generated by MachineDeck. Manual changes will be detected and replaced.\n"

/-- Whether an entry is a file that counts as generated.  The header is ASCII, so a text that was
decoded with replacements begins with it where the bytes do. -/
def generated (host : Host) : Node → Bool
  | .regular owner readable content =>
    readable && owner == host.euid && decide (content.size ≤ 64 * 1024) &&
      generatedHeader.toUTF8.data.toList.isPrefixOf content.data.toList
  | _ => false

/-- A link is not opened, a directory is no file, and a pipe waits for a writer. -/
def isGeneratedApplicationUnit (host : Host) (path : EntryPath) : Program Bool := do
  let tree ← get
  match tree.lookup path with
  | some .fifo => throw .waits
  | some node => return generated host node
  | none => return false

def removeUnit (host : Host) (paths : InstallPaths) (name : String) : Program Unit := do
  if name ∉ excludedUnits then
    let isGenerated ← isGeneratedApplicationUnit host (paths.userUnitDir ++ [name])
    if isGenerated then
      ensureNotSymlink (paths.userUnitDir ++ [name]) "managed application unit"
      unlink host false (paths.userUnitDir ++ [name])
    else pure ()
  else pure ()

def removeUnits (host : Host) (paths : InstallPaths) : Program Unit := do
  let tree ← get
  if (tree.lookup paths.userUnitDir).isSome then
    ((tree.names paths.userUnitDir).filter unitPattern).forM (removeUnit host paths)
    runCommand host .daemonReloadUnits
  else pure ()

/-! ### `uninstall` -/

def onlyIf (flag : Bool) (program : Program Unit) : Program Unit :=
  if flag then program else pure ()

def requireYes (flags : Flags) : Program Unit :=
  if (flags.purge || flags.removeManagedUnits) && !flags.yes then
    throw (.deployError "Destructive uninstall options require --yes")
  else pure ()

def removePurged (host : Host) (paths : InstallPaths) : Program Unit := do
  rmtreeExisting host paths.state
  rmtreeExisting host paths.configDir

def uninstall (host : Host) (paths : InstallPaths) (flags : Flags) : Program Unit := do
  rejectRoot host
  requireYes flags
  [paths.share, paths.state, paths.configDir, paths.userUnitDir].forM fun target =>
    ensureNotSymlink target "uninstall target"
  runCommand host .disable
  unlink host true paths.unit
  runCommand host .daemonReload
  rmtreeExisting host paths.share
  onlyIf flags.removeManagedUnits (removeUnits host paths)
  onlyIf flags.purge (removePurged host paths)

end MachineDeck.Uninstall

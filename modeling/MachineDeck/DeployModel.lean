import Mathlib.Data.Nat.Notation
import Mathlib.Logic.Function.Basic
import MachineDeck.ProgramTriple

/-!
# The deployment script: `deploy`

`scripts/machinedeck_deploy.py` installs and upgrades MachineDeck by a sequence of file
operations and external commands, with one `try` block whose `except Exception` handler undoes
what was done.  This file is that function as a program over the files, the database and the
user service:

* `World` — what a deployment reads and writes: the `current` pointer, the release directories,
  the unit file, `config.toml`, the database with its `-wal` and `-shm` files, the service;
* `Operation` — every place at which the function can stop, in the forward path and in the
  handler; a `Call` fixes how each of them ends and what it leaves behind;
* `deploy` — the function itself, cut at its blank lines into `prepare`, `stageRelease`,
  `stopOldService`, `saveDatabase`, `migrateDatabase`, `activate`, `lingerService`, `startService`
  and `rollback`.

An operation can end in three ways: it is done, it raises an `Exception` (which the handler
catches), or the process is killed at it (which no handler sees).  What the texts written to the
configuration and to the unit say is not used by the function, so the renderers are parameters.
SQLite is a parameter as well: a database is read from its main file and its write-ahead log, and
a rollback journal does not outlive the process that wrote it.
-/

namespace MachineDeck.Deploy

open ProgramTriple

/-! ### Files, database and service -/

/-- The `current` pointer, as `_current_target` distinguishes it.  A link is named by the release
directory it resolves to. -/
inductive Pointer where
  | absent
  | link (release : String)
  | outside
  | notLink
  deriving DecidableEq, Repr

/-- What the deployment has put into a release directory so far.  `migrated` records that the
migrations run from this directory came to their end. -/
structure ReleaseDir (Bytes : Type) where
  installing : Bool := false
  source : Bool := false
  venv : Bool := false
  package : Bool := false
  version : Option String := none
  verification : Option Bytes := none
  migrated : Bool := false
  deriving DecidableEq, Repr

/-- `machinedeck.db` and the two files beside it that the script knows of. -/
structure DatabaseFiles (Bytes : Type) where
  main : Option Bytes := none
  wal : Option Bytes := none
  shm : Option Bytes := none
  deriving DecidableEq, Repr

/-- `machinedeck.service`: the release whose code is running, whether it is enabled, and the unit
text systemd has in memory. -/
structure Service (Bytes : Type) where
  running : Option String := none
  enabled : Bool := false
  loaded : Option Bytes := none
  deriving DecidableEq, Repr

structure World (Bytes : Type) where
  current : Pointer := .absent
  releases : String → Option (ReleaseDir Bytes) := fun _ => none
  unit : Option Bytes := none
  config : Option Bytes := none
  database : DatabaseFiles Bytes := {}
  backups : List Bytes := []
  service : Service Bytes := {}
  linger : Bool := false

/-- SQLite as the script relies on it: what a main file and a write-ahead log say, and the
`Connection.backup` copy, which says the same without a log. -/
structure Sqlite (Bytes Content : Type) where
  content : Bytes → Option Bytes → Content
  backup : Bytes → Option Bytes → Bytes
  content_backup : ∀ main wal, content (backup main wal) none = content main wal

/-- The logical content of a database, absent when its main file is. -/
def Sqlite.logical {Bytes Content : Type} (sqlite : Sqlite Bytes Content)
    (database : DatabaseFiles Bytes) : Option Content :=
  database.main.map fun main => sqlite.content main database.wal

/-- Where a rendered unit points: at a release directory or at `current`. -/
inductive Root where
  | release (name : String)
  | current
  deriving DecidableEq, Repr

/-- The configuration reader and the renderers `deploy` calls.  Their exceptions are outcomes of
the operation they are called in. -/
structure Rendering (Bytes Server : Type) where
  readServerConfiguration : Bytes → Server
  accessConfiguration : Server
  renderConfig : Server → Bytes
  renderUnit : Root → Server → Bytes

/-! ### Operations and their outcomes -/

/-- The places at which `deploy` can stop: before the `try`, inside it, and in its handler. -/
inductive Operation where
  | checkHost | validateSource | preparePaths | validateSqliteWritable | currentTarget
  | requireInstalled | readServer | probePort | showEnvironment | sourceVersion
  | removeIncomplete | readOldUnit
  | makeStaging | writeMarker | copySource | createVenv | pipInstall | writeVersion
  | writeVerificationUnit | verifyUnit | unlinkVerificationUnit | writeConfig
  | queryActive | stopService | backupDatabase | migrate | chmodDatabase | unlinkMarker
  | switchCurrent | readActiveServer | writeUnit | daemonReload | confirmLinger | enableLinger
  | enableService | waitForHealth
  | rollbackStop | rollbackCurrent | rollbackUnit | rollbackDatabase | rollbackConfig
  | rollbackRelease | rollbackReload | rollbackStart
  deriving DecidableEq, Repr

inductive OpOutcome where
  | done
  | raised
  | killed
  deriving DecidableEq, Repr

/-- The operations of the `try` block, in source order. -/
def tryOperations : List Operation :=
  [.makeStaging, .writeMarker, .copySource, .createVenv, .pipInstall, .writeVersion,
    .writeVerificationUnit, .verifyUnit, .unlinkVerificationUnit, .writeConfig, .queryActive,
    .stopService, .backupDatabase, .migrate, .chmodDatabase, .unlinkMarker, .switchCurrent,
    .readActiveServer, .writeUnit, .daemonReload, .confirmLinger, .enableLinger, .enableService,
    .waitForHealth]

/-- One call of `deploy`: its flags, what the host answers, and how each operation ends.
`applied` says whether an operation that did not come to its end had its effect already, `remains`
what an unfinished removal leaves of a directory; `migrated` and `served` are what alembic and the
newly started server leave of the database. -/
structure Call (Bytes : Type) where
  upgrade : Bool
  start : Bool := true
  enableLinger : Bool := false
  confirmed : Bool := false
  version : String
  stamp : String := ""
  portAvailable : Bool := true
  outcome : Operation → OpOutcome := fun _ => .done
  applied : Operation → Bool := fun _ => false
  remains : Operation → ReleaseDir Bytes → Option (ReleaseDir Bytes) := fun _ => some
  migrated : DatabaseFiles Bytes → DatabaseFiles Bytes := id
  served : DatabaseFiles Bytes → DatabaseFiles Bytes := id

/-- Why a call ends without returning: an exception out of an operation, or the process is killed
at it. -/
inductive Halt where
  | raised (op : Operation)
  | killed (op : Operation)
  deriving DecidableEq, Repr

/-- The files together with the local variables the handler reads. -/
structure Progress (Bytes : Type) where
  world : World Bytes
  backup : Option Bytes := none
  stoppedOldService : Bool := false
  switched : Bool := false

abbrev Script (Bytes : Type) := EStateM Halt (Progress Bytes)

section
variable {Bytes Content Server : Type}

/-- Run one operation: its effect depends on how it ends. -/
def perform (call : Call Bytes) (op : Operation)
    (effect : OpOutcome → Progress Bytes → Progress Bytes) : Script Bytes Unit := do
  modify (effect (call.outcome op))
  match call.outcome op with
  | .done => pure ()
  | .raised => throw (.raised op)
  | .killed => throw (.killed op)

/-- `_best_effort`: an exception is swallowed. -/
def bestEffort (call : Call Bytes) (op : Operation)
    (effect : OpOutcome → Progress Bytes → Progress Bytes) : Script Bytes Unit := do
  modify (effect (call.outcome op))
  match call.outcome op with
  | .killed => throw (.killed op)
  | _ => pure ()

/-- A change of the files that is in place when the operation is done, and that may or may not be
in place when it is not. -/
def changing (call : Call Bytes) (op : Operation) (f : World Bytes → World Bytes) :
    OpOutcome → Progress Bytes → Progress Bytes
  | .done, p => { p with world := f p.world }
  | _, p => if call.applied op then { p with world := f p.world } else p

/-- A change made by the operation's last system call: when that call raises, it did nothing. -/
def replacing (call : Call Bytes) (op : Operation) (f : World Bytes → World Bytes) :
    OpOutcome → Progress Bytes → Progress Bytes
  | .done, p => { p with world := f p.world }
  | .raised, p => p
  | .killed, p => if call.applied op then { p with world := f p.world } else p

/-- An operation that changes nothing. -/
def looking : OpOutcome → Progress Bytes → Progress Bytes := fun _ p => p

/-! ### Effects -/

def World.editRelease (w : World Bytes) (name : String)
    (f : ReleaseDir Bytes → ReleaseDir Bytes) : World Bytes :=
  { w with releases := Function.update w.releases name ((w.releases name).map f) }

def World.makeRelease (w : World Bytes) (name : String) : World Bytes :=
  { w with releases := Function.update w.releases name (some {}) }

/-- `shutil.rmtree` of a release directory. -/
def World.removeRelease (w : World Bytes) (name : String) : World Bytes :=
  { w with releases := Function.update w.releases name none }

/-- The same, when it does not come to its end. -/
def World.leaveRelease (w : World Bytes) (name : String)
    (remains : ReleaseDir Bytes → Option (ReleaseDir Bytes)) : World Bytes :=
  { w with releases := Function.update w.releases name ((w.releases name).bind remains) }

def removing (call : Call Bytes) (op : Operation) (name : String) :
    OpOutcome → Progress Bytes → Progress Bytes
  | .done, p => { p with world := p.world.removeRelease name }
  | _, p => { p with world := p.world.leaveRelease name (call.remains op) }

/-- The release `current` points at. -/
def World.currentRelease (w : World Bytes) : Option String :=
  match w.current with
  | .link release => some release
  | _ => none

def World.stopService (w : World Bytes) : World Bytes :=
  { w with service := { w.service with running := none } }

/-- `systemctl start`: the unit runs the virtual environment behind `current`. -/
def World.startService (w : World Bytes) : World Bytes :=
  { w with service := { w.service with running := w.currentRelease } }

/-- `systemctl enable --now`, and what the started server writes into the database. -/
def World.enableService (w : World Bytes)
    (served : DatabaseFiles Bytes → DatabaseFiles Bytes) : World Bytes :=
  { w with
    service := { w.service with running := w.currentRelease, enabled := true }
    database := served w.database }

/-- `systemctl disable --now`. -/
def World.disableService (w : World Bytes) : World Bytes :=
  { w with service := { w.service with running := none, enabled := false } }

def World.reload (w : World Bytes) : World Bytes :=
  { w with service := { w.service with loaded := w.unit } }

/-! ### The forward path -/

/-- `_release_name`. -/
def releaseName (call : Call Bytes) : String :=
  if call.upgrade then s!"{call.version}-{call.stamp}" else call.version

/-- The local variables that are fixed when the `try` block is entered. -/
structure Before (Bytes Server : Type) where
  oldRelease : Option String
  release : String
  server : Server
  oldUnit : Option Bytes
  databaseExisted : Bool
  configExisted : Bool

/-- `_current_target`: the release behind `current`; a pointer that is no link, or that leaves the
release directory, is refused. -/
def currentTarget (call : Call Bytes) : Script Bytes (Option String) := do
  perform call .currentTarget looking
  match (← get).world.current with
  | .absent => return none
  | .link release => return some release
  | .outside => throw (.raised .currentTarget)
  | .notLink => throw (.raised .currentTarget)

/-- An existing configuration is read, a missing one is made from the arguments. -/
def chooseServer (render : Rendering Bytes Server) (call : Call Bytes) : Script Bytes Server := do
  perform call .readServer looking
  match (← get).world.config with
  | some text => return render.readServerConfiguration text
  | none => return render.accessConfiguration

/-- The port may be taken only by the active service itself. -/
def probePort (call : Call Bytes) : Script Bytes Unit := do
  perform call .probePort looking
  if !call.portAvailable && (← get).world.service.running.isNone then
    throw (.raised .probePort)

/-- The new release directory must not exist; an unfinished one that is not the old release is
removed. -/
def claimRelease (call : Call Bytes) (oldRelease : Option String) : Script Bytes String := do
  let release := releaseName call
  match (← get).world.releases release with
  | none => return release
  | some dir =>
    if dir.installing && some release != oldRelease then
      perform call .removeIncomplete (removing call .removeIncomplete release)
      return release
    else
      throw (.raised .removeIncomplete)

/-- What `deploy` does for a new release before its `try` block. -/
def prepareRelease (render : Rendering Bytes Server) (call : Call Bytes)
    (oldRelease : Option String) : Script Bytes (Before Bytes Server) := do
  let server ← chooseServer render call
  probePort call
  perform call .showEnvironment looking
  perform call .sourceVersion looking
  let release ← claimRelease call oldRelease
  perform call .readOldUnit looking
  let w := (← get).world
  return { oldRelease, release, server, oldUnit := w.unit,
           databaseExisted := w.database.main.isSome, configExisted := w.config.isSome }

/-- Everything before the `try` block.  A first install over an installation returns at once. -/
def prepare (render : Rendering Bytes Server) (call : Call Bytes) :
    Script Bytes (String ⊕ Before Bytes Server) := do
  perform call .checkHost looking
  perform call .validateSource looking
  perform call .preparePaths looking
  perform call .validateSqliteWritable looking
  let oldRelease ← currentTarget call
  match oldRelease, call.upgrade with
  | none, true => throw (.raised .requireInstalled)
  | some old, false => return .inl old
  | _, _ => return .inr (← prepareRelease render call oldRelease)

/-- Build and verify the release in its directory, and write a missing configuration. -/
def stageRelease (render : Rendering Bytes Server) (call : Call Bytes)
    (before : Before Bytes Server) : Script Bytes Unit := do
  let release := before.release
  perform call .makeStaging (replacing call .makeStaging (·.makeRelease release))
  perform call .writeMarker
    (changing call .writeMarker (·.editRelease release ({ · with installing := true })))
  perform call .copySource
    (changing call .copySource (·.editRelease release ({ · with source := true })))
  perform call .createVenv
    (changing call .createVenv (·.editRelease release ({ · with venv := true })))
  perform call .pipInstall
    (changing call .pipInstall (·.editRelease release ({ · with package := true })))
  perform call .writeVersion
    (changing call .writeVersion
      (·.editRelease release ({ · with version := some call.version })))
  perform call .writeVerificationUnit
    (changing call .writeVerificationUnit
      (·.editRelease release
        ({ · with verification := some (render.renderUnit (.release release) before.server) })))
  perform call .verifyUnit looking
  perform call .unlinkVerificationUnit
    (replacing call .unlinkVerificationUnit
      (·.editRelease release ({ · with verification := none })))
  if (← get).world.config.isNone then
    perform call .writeConfig
      (changing call .writeConfig ({ · with config := some (render.renderConfig before.server) }))

/-- An upgrade stops the service it finds active; `stopped_old_service` is set after the stop. -/
def stopOldService (call : Call Bytes) (before : Before Bytes Server) :
    Script Bytes Unit := do
  if before.oldRelease.isSome then
    perform call .queryActive looking
    if (← get).world.service.running.isSome then
      perform call .stopService (changing call .stopService (·.stopService))
      modify ({ · with stoppedOldService := true })

/-- `backup = _backup_database(paths)`: the variable is assigned only when the copy is complete. -/
def saveDatabase (sqlite : Sqlite Bytes Content) (call : Call Bytes) : Script Bytes Unit :=
  perform call .backupDatabase fun outcome p =>
    let copy := p.world.database.main.map (sqlite.backup · p.world.database.wal)
    match outcome with
    | .done => { p with backup := copy, world.backups := p.world.backups ++ copy.toList }
    | _ =>
      if call.applied .backupDatabase then
        { p with world.backups := p.world.backups ++ copy.toList }
      else p

/-- Alembic may leave anything in the database, whether it succeeds or fails. -/
def migrateDatabase (call : Call Bytes) (before : Before Bytes Server) :
    Script Bytes Unit := do
  perform call .migrate fun outcome p =>
    { p with world :=
      { (p.world.editRelease before.release
          fun dir => { dir with migrated := dir.migrated || outcome == .done }) with
        database := call.migrated p.world.database } }
  if (← get).world.database.main.isNone then
    throw (.raised .chmodDatabase)
  perform call .chmodDatabase looking

/-- Drop the marker, move `current`, write the unit, reload systemd. -/
def activate (render : Rendering Bytes Server) (call : Call Bytes)
    (before : Before Bytes Server) : Script Bytes Unit := do
  perform call .unlinkMarker
    (replacing call .unlinkMarker
      (·.editRelease before.release ({ · with installing := false })))
  perform call .switchCurrent
    (replacing call .switchCurrent ({ · with current := .link before.release }))
  modify ({ · with switched := true })
  perform call .readActiveServer looking
  match (← get).world.config with
  | none => throw (.raised .readActiveServer)
  | some text =>
    let activeServer := render.readServerConfiguration text
    perform call .writeUnit
      (changing call .writeUnit
        ({ · with unit := some (render.renderUnit .current activeServer) }))
  perform call .daemonReload (changing call .daemonReload (·.reload))

/-- Linger is enabled only when asked for and confirmed. -/
def lingerService (call : Call Bytes) : Script Bytes Unit := do
  if call.enableLinger then
    perform call .confirmLinger looking
    if call.confirmed then
      perform call .enableLinger (changing call .enableLinger ({ · with linger := true }))

/-- `enable --now` and the health check. -/
def startService (call : Call Bytes) : Script Bytes Unit := do
  if call.start then
    perform call .enableService
      (changing call .enableService (·.enableService call.served))
    perform call .waitForHealth fun _ p =>
      { p with world.database := call.served p.world.database }

/-- The body of the `try` block. -/
def tryBlock (sqlite : Sqlite Bytes Content) (render : Rendering Bytes Server)
    (call : Call Bytes) (before : Before Bytes Server) : Script Bytes Unit := do
  stageRelease render call before
  stopOldService call before
  saveDatabase sqlite call
  migrateDatabase call before
  activate render call before
  lingerService call
  startService call

/-! ### The handler -/

/-- The service is stopped first, whatever was running; a first install also disables it. -/
def rollbackService (call : Call Bytes) (before : Before Bytes Server) :
    Script Bytes Unit :=
  if before.oldRelease.isNone then
    bestEffort call .rollbackStop (changing call .rollbackStop (·.disableService))
  else
    bestEffort call .rollbackStop (changing call .rollbackStop (·.stopService))

/-- The pointer is undone only when `switched` was set. -/
def rollbackCurrent (call : Call Bytes) (before : Before Bytes Server) :
    Script Bytes Unit := do
  if (← get).switched then
    perform call .rollbackCurrent
      (replacing call .rollbackCurrent ({ · with
        current := match before.oldRelease with
          | some old => .link old
          | none => .absent }))

/-- `_restore_database` when a backup was taken, `_remove_database` when there was no database. -/
def rollbackDatabase (call : Call Bytes) (before : Before Bytes Server) :
    Script Bytes Unit := do
  match (← get).backup with
  | some copy =>
    perform call .rollbackDatabase
      (changing call .rollbackDatabase ({ · with database := { main := some copy } }))
  | none =>
    if !before.databaseExisted then
      perform call .rollbackDatabase (changing call .rollbackDatabase ({ · with database := {} }))

/-- A configuration that was not there is removed. -/
def rollbackConfig (call : Call Bytes) (before : Before Bytes Server) : Script Bytes Unit :=
  if !before.configExisted then
    perform call .rollbackConfig (changing call .rollbackConfig ({ · with config := none }))
  else pure ()

/-- The first removal of the new release directory spares the old release. -/
def removeRelease (call : Call Bytes) (before : Before Bytes Server) : Script Bytes Unit := do
  if ((← get).world.releases before.release).isSome && some before.release != before.oldRelease then
    perform call .rollbackRelease (removing call .rollbackRelease before.release)

/-- The second removal is of `staging`, which is the same path. -/
def removeStaging (call : Call Bytes) (before : Before Bytes Server) : Script Bytes Unit := do
  if ((← get).world.releases before.release).isSome then
    perform call .rollbackRelease (removing call .rollbackRelease before.release)

/-- Only a service that the forward path has stopped is started again. -/
def restartService (call : Call Bytes) : Script Bytes Unit := do
  if (← get).stoppedOldService then
    bestEffort call .rollbackStart (changing call .rollbackStart (·.startService))

/-- The handler of `except Exception`, up to its `raise`. -/
def rollback (call : Call Bytes) (before : Before Bytes Server) : Script Bytes Unit := do
  rollbackService call before
  rollbackCurrent call before
  perform call .rollbackUnit (changing call .rollbackUnit ({ · with unit := before.oldUnit }))
  rollbackDatabase call before
  rollbackConfig call before
  removeRelease call before
  removeStaging call before
  bestEffort call .rollbackReload (changing call .rollbackReload (·.reload))
  restartService call

/-- `except Exception: …; raise`.  A kill is not an `Exception`. -/
def handle (call : Call Bytes) (before : Before Bytes Server) :
    Halt → Script Bytes Unit
  | .raised op => do
    rollback call before
    throw (.raised op)
  | .killed op => throw (.killed op)

/-- `deploy`: the release that is installed when it returns. -/
def deploy (sqlite : Sqlite Bytes Content) (render : Rendering Bytes Server)
    (call : Call Bytes) : Script Bytes String := do
  match ← prepare render call with
  | .inl old => return old
  | .inr before =>
    tryCatch (tryBlock sqlite render call before) (handle call before)
    return before.release

end

end MachineDeck.Deploy

import Mathlib.Data.Finmap
import Mathlib.Data.List.MinMax
import MachineDeck.LifecycleStatus
import MachineDeck.ManifestSchema
import MachineDeck.ProgramTriple

/-!
# The registry database

The tables of `database/models.py` that the application and lifecycle services use, and what a
session does with them.

* `Registry` — applications, their instance rows, the execution history and the audit trail;
* `Raised` — the exceptions that leave a service call;
* `uuid4`, `utcNow` — an unused id, a later instant;
* `InstanceObject`, `commitInstance`, `refreshInstance` — an instance row in a session, which
  writes back the attributes that it changed and no others.

An application has at most one instance row: creation writes it, `_state_record` writes one only
when there is none, and the foreign key removes it with its application.  So the row is kept under
its application's id, and "the latest row" is a lookup.  JSON columns hold the JSON text of each
of their values.
-/

namespace MachineDeck.Lifecycle

open ProgramTriple

abbrev Time := ℕ

abbrev Uuid := ℕ

/-! ### Rows -/

/-- A row of `applications`; its primary key is the key of the table. -/
structure ApplicationRecord where
  name : String
  description : String
  runtimeType : String
  configYaml : String
  enabled : Bool
  createdAt : Time
  updatedAt : Time
  deriving DecidableEq, Repr

/-- A row of `application_instances`; its `application_id` is the key of the table. -/
structure ApplicationInstanceRecord where
  id : Uuid
  status : ApplicationStatus
  runtimeIdentifier : Option String := none
  startedAt : Option Time := none
  stoppedAt : Option Time := none
  exitCode : Option Int := none
  errorMessage : Option String := none
  metadata : List (String × String) := []
  createdAt : Time
  updatedAt : Time
  deriving DecidableEq, Repr

structure ExecutionRecord where
  id : Uuid
  applicationId : String
  action : Action
  status : ExecutionStatus
  requestedBy : String
  requestedAt : Time
  startedAt : Option Time := none
  finishedAt : Option Time := none
  exitCode : Option Int := none
  errorCode : Option String := none
  errorMessage : Option String := none
  deriving DecidableEq, Repr

structure PortConflict where
  protocol : String
  bindAddress : String
  port : ℕ
  pid : Option ℕ := none
  processName : Option String := none
  applicationId : Option String := none
  managedByMachinedeck : Bool := false
  deriving DecidableEq, Repr

/-- A value of an audit event's details. -/
inductive DetailValue where
  | null
  | text (value : String)
  | uuid (id : Uuid)
  | conflicts (conflicts : List PortConflict)
  | request (method path : String)
  deriving DecidableEq, Repr

/-- `None` is JSON's `null`. -/
def DetailValue.ofOption : Option String → DetailValue
  | none => .null
  | some value => .text value

structure AuditEventRecord where
  id : Uuid
  actor : String
  action : String
  targetType : String := "application"
  targetId : String
  result : String
  details : List (String × DetailValue)
  createdAt : Time
  deriving DecidableEq, Repr

/-- The execution an audit event is about. -/
def AuditEventRecord.executionId (event : AuditEventRecord) : Option Uuid :=
  match event.details.lookup "execution_id" with
  | some (.uuid id) => some id
  | _ => none

/-- The error code an audit event carries. -/
def AuditEventRecord.errorCode (event : AuditEventRecord) : Option String :=
  match event.details.lookup "error_code" with
  | some (.text code) => some code
  | _ => none

/-- A call that reached a runtime adapter. -/
structure AdapterCall where
  manifest : ApplicationManifest
  action : Action
  deriving DecidableEq

/-- The database, the clock, the ids given out, and the adapter calls made so far. -/
structure Registry where
  applications : Finmap fun _ : String => ApplicationRecord := ∅
  instances : Finmap fun _ : String => ApplicationInstanceRecord := ∅
  executions : List ExecutionRecord := []
  auditEvents : List AuditEventRecord := []
  clock : Time := 0
  lastUuid : Uuid := 0
  calls : List AdapterCall := []

/-! ### Exceptions -/

structure LifecycleError where
  code : String
  message : String
  conflicts : List PortConflict := []
  deriving DecidableEq, Repr

/-- What leaves a service call as an exception: its own errors, a stored manifest that does not
load, a row that is gone when it is written or refreshed, and whatever an awaited call raises. -/
inductive Raised where
  | lifecycle (error : LifecycleError)
  | applicationExists (message : String)
  | applicationNotFound (message : String)
  | applicationRunning (message : String)
  | value (message : String)
  | unreadableManifest
  | staleRow
  | external (exception : String)
  deriving DecidableEq, Repr

/-- The code of a `LifecycleError`. -/
def Raised.code : Raised → Option String
  | .lifecycle error => some error.code
  | _ => none

abbrev Program := EStateM Raised Registry

/-- Raise unless the condition holds. -/
def require (condition : Bool) (raised : Raised) : Program Unit :=
  if condition then pure () else throw raised

/-! ### Clock and ids -/

/-- `utc_now`: no two readings are the same. -/
def utcNow : Program Time :=
  modifyGet fun db => (db.clock, { db with clock := db.clock + 1 })

/-- The ids that occur in the history. -/
def Registry.historyIds (db : Registry) : List Uuid :=
  db.executions.map ExecutionRecord.id ++ db.auditEvents.filterMap AuditEventRecord.executionId

/-- An id above every id that was given out and every id in the history. -/
def Registry.unusedUuid (db : Registry) : Uuid :=
  db.historyIds.foldr max db.lastUuid + 1

/-- `uuid4`, which never gives the same id twice. -/
def uuid4 : Program Uuid :=
  modifyGet fun db => (db.unusedUuid, { db with lastUuid := db.unusedUuid })

theorem Registry.lt_unusedUuid {db : Registry} {id : Uuid} (h : id ∈ db.historyIds) :
    id < db.unusedUuid :=
  Nat.lt_succ_of_le (List.le_max_of_le' db.lastUuid h le_rfl)

/-! ### Instance rows in a session -/

/-- An instance row in a session: the attributes as they were last read or written (none for a row
that is still to be inserted), and as they are now. -/
structure InstanceObject where
  applicationId : String
  loaded : Option ApplicationInstanceRecord
  now : ApplicationInstanceRecord
  deriving DecidableEq

/-- An attribute is written only when its value differs from the one that was loaded. -/
def writtenBack {α : Type} [DecidableEq α] (loaded now stored : α) : α :=
  if now = loaded then stored else now

/-- What an `UPDATE` of the changed attributes leaves in the row. -/
def ApplicationInstanceRecord.writeBack (loaded now stored : ApplicationInstanceRecord)
    (updatedAt : Time) : ApplicationInstanceRecord :=
  { stored with
    status := writtenBack loaded.status now.status stored.status
    runtimeIdentifier :=
      writtenBack loaded.runtimeIdentifier now.runtimeIdentifier stored.runtimeIdentifier
    startedAt := writtenBack loaded.startedAt now.startedAt stored.startedAt
    stoppedAt := writtenBack loaded.stoppedAt now.stoppedAt stored.stoppedAt
    exitCode := writtenBack loaded.exitCode now.exitCode stored.exitCode
    errorMessage := writtenBack loaded.errorMessage now.errorMessage stored.errorMessage
    metadata := writtenBack loaded.metadata now.metadata stored.metadata
    updatedAt := updatedAt }

def Registry.putInstance (db : Registry) (applicationId : String)
    (row : ApplicationInstanceRecord) : Registry :=
  { db with instances := db.instances.insert applicationId row }

/-- The `INSERT` of a pending row, which needs its application. -/
def insertInstance (state : InstanceObject) : Program InstanceObject := do
  require ((← get).applications.lookup state.applicationId).isSome .staleRow
  modify (·.putInstance state.applicationId state.now)
  return { state with loaded := some state.now }

/-- The `UPDATE` of the attributes that differ from the loaded ones.  It raises when it finds no
row with this id. -/
def updateInstance (state : InstanceObject) (loaded : ApplicationInstanceRecord) :
    Program InstanceObject := do
  let updatedAt ← utcNow
  let now := { state.now with updatedAt }
  match (← get).instances.lookup state.applicationId with
  | none => throw .staleRow
  | some stored =>
    require (stored.id = loaded.id) .staleRow
    modify (·.putInstance state.applicationId (loaded.writeBack now stored updatedAt))
    return { state with loaded := some now, now }

/-- `session.commit()` for an instance row. -/
def commitInstance (state : InstanceObject) : Program InstanceObject :=
  match state.loaded with
  | none => insertInstance state
  | some loaded => if state.now = loaded then pure state else updateInstance state loaded

/-- `session.refresh(state)`. -/
def refreshInstance (state : InstanceObject) : Program InstanceObject := do
  match (← get).instances.lookup state.applicationId with
  | none => throw .staleRow
  | some stored =>
    require (stored.id = state.now.id) .staleRow
    return { state with loaded := some stored, now := stored }

end MachineDeck.Lifecycle

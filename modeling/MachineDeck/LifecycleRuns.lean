import MachineDeck.GuardedRuns
import MachineDeck.LifecycleRecords
import MachineDeck.RegistryOperations

/-!
# Runs of configuration and lifecycle requests

One registry under any sequence of requests.

* `Request`, `World` — the requests, and the registry together with the workloads that run;
* `Request.perform_only` — a request touches the rows of its own application only;
* `Protected`, `Guarded` — what covers a running workload: its application is enabled and its
  persisted status is active;
* `live_configuration_kept` — the configuration of a running workload can be neither changed nor
  dropped, as long as no stop or restart fails and no status is unknown while it runs.
-/

namespace MachineDeck.Lifecycle

open ProgramTriple GuardedRuns

/-! ### Requests -/

inductive Operation where
  | create (manifest : ApplicationManifest)
  | update (applicationId : String) (manifest : ApplicationManifest)
  | delete (applicationId : String)
  | status (applicationId : String) (surroundings : Surroundings)
  | action (applicationId name : String) (surroundings : Surroundings)

def Operation.applicationId : Operation → String
  | .create manifest => manifest.id
  | .update applicationId _ => applicationId
  | .delete applicationId => applicationId
  | .status applicationId _ => applicationId
  | .action applicationId _ _ => applicationId

/-- A request to the service as it is configured then. -/
structure Request where
  service : LifecycleService
  operation : Operation

/-- The registry after a request, whether it returned or raised. -/
def Request.perform (request : Request) (db : Registry) : Registry :=
  let service := request.service
  match request.operation with
  | .create manifest => finalState (createApplication service.yaml service.requester manifest db)
  | .update applicationId manifest =>
    finalState (updateApplication service.yaml service.requester applicationId manifest db)
  | .delete applicationId => finalState (deleteApplication service.requester applicationId db)
  | .status applicationId surroundings =>
    finalState (service.status surroundings applicationId db)
  | .action applicationId name surroundings =>
    finalState (service.action surroundings applicationId name db)

/-- An action of a known name takes one of the courses of that action. -/
theorem action_course (service : LifecycleService) (surroundings : Surroundings) (db : Registry)
    (applicationId : String) {name : String} {action : Action}
    (hname : Action.ofName name = some action) :
    Course service surroundings db applicationId action
      (service.action surroundings applicationId name db) := by
  simp only [LifecycleService.action, hname]
  exact lockedAction_course service surroundings db applicationId action

theorem action_unknown (service : LifecycleService) (surroundings : Surroundings) (db : Registry)
    (applicationId : String) {name : String} (hname : Action.ofName name = none) :
    finalState (service.action surroundings applicationId name db) = db := by
  simp only [LifecycleService.action, hname, run_throw, finalState]

/-- A request touches the rows of its own application only. -/
theorem Request.perform_only (request : Request) (db : Registry) :
    OnlyApplication request.operation.applicationId db (request.perform db) := by
  obtain ⟨service, operation⟩ := request
  cases operation with
  | create manifest => exact (createApplication_effect _ _ manifest db).only
  | update applicationId manifest =>
      exact (updateApplication_effect _ _ applicationId manifest db).only
  | delete applicationId => exact (deleteApplication_effect _ applicationId db).only
  | status applicationId surroundings =>
      exact (status_effect service surroundings applicationId db).only
  | action applicationId name surroundings =>
      cases hname : Action.ofName name with
      | none =>
          show OnlyApplication applicationId db
            (finalState (service.action surroundings applicationId name db))
          rw [action_unknown service surroundings db applicationId hname]
          exact (SameRecords.refl db).only applicationId
      | some action => exact (action_course service surroundings db applicationId hname).only

/-! ### Workloads -/

/-- The registry, and which workloads really run. -/
structure World where
  db : Registry := {}
  running : String → Bool := fun _ => false

/-- A successful start or restart makes the workload run, a successful stop makes it stop; a call
that fails or raises leaves it as it was. -/
def callEffect (action : Action) (call : Awaited AdapterResult) (running : Bool) : Bool :=
  match call with
  | .returned result => if result.succeeded then action.starts else running
  | .raised _ => running

/-- Whether the workload runs after an action that began in `db₀` and ended in `db`: only a call
that reached the adapter changes that. -/
def runningAfter (db₀ db : Registry) (action : Action) (call : Awaited AdapterResult)
    (running : Bool) : Bool :=
  if db.calls = db₀.calls then running else callEffect action call running

/-- Whether the request's own workload runs after it. -/
def World.workload (w : World) (request : Request) : Bool :=
  let before := w.running request.operation.applicationId
  match request.operation with
  | .action _ name surroundings =>
    match Action.ofName name with
    | none => before
    | some action => runningAfter w.db (request.perform w.db) action surroundings.call before
  | _ => before

def World.after (w : World) (request : Request) : World where
  db := request.perform w.db
  running := Function.update w.running request.operation.applicationId (w.workload request)

/-- The statuses that report a workload truly. -/
def trueStatuses (running : Bool) : List ApplicationStatus :=
  if running then [.starting, .running, .unhealthy, .stopping] else [.stopped, .failed]

/-- `adapter.status()` reports the true state or `UNKNOWN`. -/
def Awaited.truthful (running : Bool) (observation : Awaited RuntimeState) : Prop :=
  ∀ runtimeState, observation = .returned runtimeState →
    runtimeState.status = .unknown ∨ runtimeState.status ∈ trueStatuses running

/-- The observation of a request is true of the workload as the adapter call leaves it. -/
def World.Truthful (w : World) (request : Request) : Prop :=
  match request.operation with
  | .status applicationId surroundings =>
    surroundings.observation.truthful (w.running applicationId)
  | .action applicationId name surroundings =>
    ∀ action, Action.ofName name = some action →
      surroundings.observation.truthful
        (callEffect action surroundings.call (w.running applicationId))
  | _ => True

/-- One request in a world whose adapters tell the truth. -/
def WorldStep (w : World) (request : Request) (w' : World) : Prop :=
  w.Truthful request ∧ w' = w.after request

/-! ### The configuration of a running workload -/

/-- The guard covers the application: it is enabled and its persisted status is active. -/
structure Protected (db : Registry) (applicationId : String) : Prop where
  enabled : ∃ record, db.applications.lookup applicationId = some record ∧ record.enabled = true
  active : ∃ row, db.instances.lookup applicationId = some row ∧ row.status ∈ activeStatuses

/-- The invariant: every running workload is protected. -/
def Guarded (w : World) : Prop :=
  ∀ applicationId, w.running applicationId = true → Protected w.db applicationId

theorem Protected.registry_active {db : Registry} {applicationId : String}
    (h : Protected db applicationId) : db.active applicationId = true := by
  obtain ⟨row, hrow, hstatus⟩ := h.active
  rw [Registry.active, hrow]
  exact List.contains_iff_mem.mpr hstatus

/-- No stop or restart fails while the workload runs, and no status is unknown while it runs. -/
def World.Steady (w : World) (request : Request) : Prop :=
  match request.operation with
  | .status applicationId surroundings =>
    ∀ runtimeState, surroundings.observation = .returned runtimeState →
      w.running applicationId = true → runtimeState.status ≠ .unknown
  | .action applicationId name surroundings =>
    ∀ action, Action.ofName name = some action →
      (∀ result, surroundings.call = .returned result → action ≠ .start →
        w.running applicationId = true → result.succeeded = true) ∧
      (∀ runtimeState, surroundings.observation = .returned runtimeState →
        callEffect action surroundings.call (w.running applicationId) = true →
          runtimeState.status ≠ .unknown)
  | _ => True

/-- Only the request's own application needs to be looked at. -/
theorem Guarded.after {w : World} {request : Request} (h : Guarded w)
    (hown : w.workload request = true →
      Protected (request.perform w.db) request.operation.applicationId) :
    Guarded (w.after request) := by
  intro applicationId hrunning
  change Function.update w.running request.operation.applicationId (w.workload request)
    applicationId = true at hrunning
  by_cases hid : applicationId = request.operation.applicationId
  · rw [hid] at hrunning ⊢
    rw [Function.update_self] at hrunning
    exact hown hrunning
  · rw [Function.update_of_ne hid] at hrunning
    have honly := request.perform_only w.db
    obtain ⟨⟨record, hrecord, henabled⟩, ⟨row, hrow, hstatus⟩⟩ := h applicationId hrunning
    exact ⟨⟨record, (honly.applications _ hid).trans hrecord, henabled⟩,
      ⟨row, (honly.instances _ hid).trans hrow, hstatus⟩⟩

/-- A true report of a running workload that is not `UNKNOWN` is an active status. -/
theorem active_of_truthful {observation : Awaited RuntimeState} {runtimeState : RuntimeState}
    (htruthful : observation.truthful true) (hobservation : observation = .returned runtimeState)
    (hknown : runtimeState.status ≠ .unknown) : runtimeState.status ∈ activeStatuses := by
  have hactive : ∀ status ∈ trueStatuses true, status ∈ activeStatuses := by decide
  rcases htruthful runtimeState hobservation with h | h
  · exact absurd h hknown
  · exact hactive _ h

theorem Protected.of_same {db db' : Registry} {applicationId : String}
    (h : Protected db applicationId) (happlications : db'.applications = db.applications)
    (hinstances : db'.instances = db.instances) : Protected db' applicationId := by
  obtain ⟨⟨record, hrecord, henabled⟩, ⟨row, hrow, hstatus⟩⟩ := h
  exact ⟨⟨record, by rw [happlications, hrecord], henabled⟩,
    ⟨row, by rw [hinstances, hrow], hstatus⟩⟩

/-- An application whose record is kept and whose new status is active is protected. -/
theorem Protected.of_status {db db' : Registry} {applicationId : String}
    {record : ApplicationRecord} {row : ApplicationInstanceRecord}
    (hrecord : db.applications.lookup applicationId = some record)
    (henabled : record.enabled = true) (happlications : db'.applications = db.applications)
    (hrow : db'.instances.lookup applicationId = some row) (hstatus : row.status ∈ activeStatuses) :
    Protected db' applicationId :=
  ⟨⟨record, by rw [happlications, hrecord], henabled⟩, ⟨row, hrow, hstatus⟩⟩

theorem CreateEffect.protected {manifest : ApplicationManifest} {db db' : Registry}
    (h : CreateEffect manifest db db') (hprotected : Protected db manifest.id) :
    Protected db' manifest.id := by
  cases h with
  | taken => exact hprotected
  | created hnew henabled hstatus h =>
      obtain ⟨record, hrecord, -⟩ := hprotected.enabled
      exact absurd (hnew.symm.trans hrecord) (by simp)

theorem UpdateEffect.protected {α : Type} {applicationId : String} {manifest : ApplicationManifest}
    {db : Registry} {result : EStateM.Result Raised Registry α}
    (h : UpdateEffect applicationId manifest db result) (hprotected : Protected db applicationId) :
    Protected (finalState result) applicationId := by
  cases h with
  | refused => exact hprotected
  | applied hinactive hrecord henabled h =>
      exact absurd (hinactive.symm.trans hprotected.registry_active) (by decide)

theorem DeleteEffect.protected {applicationId : String} {db : Registry}
    {result : EStateM.Result Raised Registry Unit} (h : DeleteEffect applicationId db result)
    (hprotected : Protected db applicationId) : Protected (finalState result) applicationId := by
  cases h with
  | refused => exact hprotected
  | deleted hinactive h =>
      exact absurd (hinactive.symm.trans hprotected.registry_active) (by decide)

theorem StatusEffect.protected {service : LifecycleService} {surroundings : Surroundings}
    {applicationId : String} {db db' : Registry}
    (h : StatusEffect service surroundings applicationId db db')
    (hprotected : Protected db applicationId)
    (htruthful : surroundings.observation.truthful true)
    (hknown : ∀ runtimeState, surroundings.observation = .returned runtimeState →
      runtimeState.status ≠ .unknown) : Protected db' applicationId := by
  cases h with
  | raised h => exact hprotected.of_same h.applications h.instances
  | disabled hrecord hdisabled hrow hstatus h =>
      obtain ⟨record, hrecord', henabled⟩ := hprotected.enabled
      rw [hrecord] at hrecord'
      cases hrecord'
      exact absurd (hdisabled.symm.trans henabled) (by decide)
  | observed hrecord henabled hobservation hrow hstatus h =>
      refine Protected.of_status hrecord henabled h.applications hrow ?_
      rw [hstatus]
      exact active_of_truthful htruthful hobservation (hknown _ hobservation)

/-! ### Actions on a protected application -/

/-- An execution was created, and nothing else has happened to the application. -/
theorem Begun.protected {service : LifecycleService} {db₀ db : Registry} {applicationId : String}
    {action : Action} {run : ActionRun} (h : Begun service db₀ applicationId action run db)
    (hprotected : Protected db₀ applicationId) : Protected db applicationId := by
  obtain ⟨row, hrow, -⟩ := hprotected.active
  exact hprotected.of_same h.started.applications (h.kept row (h.name.1 ▸ hrow))

/-- Where the adapter is called, the persisted status is active. -/
theorem Entered.protected {service : LifecycleService} {preflight : Preflight} {db₀ db : Registry}
    {applicationId : String} {action : Action} {run : ActionRun}
    (h : Entered service preflight db₀ applicationId action run db) :
    Protected db applicationId := by
  have hentered : action.enteredStatus ∈ activeStatuses := by cases action <;> decide
  obtain ⟨record, hregistered, henabled⟩ := h.registered
  refine Protected.of_status hregistered.stored henabled h.started.applications
    (h.name.1 ▸ h.started.key ▸ h.started.attached.stored) ?_
  rw [h.status]
  exact hentered

/-- A start is never let through to the adapter from an active status. -/
theorem not_start_of_active {status : ApplicationStatus} (hactive : status ∈ activeStatuses)
    (hadmitted : alreadyRunning .start status = false)
    (hallowed : requireTransition status Action.start.firstStatus = true) : False := by
  revert hactive hadmitted hallowed
  cases status <;> decide

theorem Protected.persistedStatus {db : Registry} {applicationId : String}
    (h : Protected db applicationId) : db.persistedStatus applicationId ∈ activeStatuses := by
  obtain ⟨row, hrow, hstatus⟩ := h.active
  rw [Registry.persistedStatus, hrow]
  exact hstatus

theorem runningAfter_same {db₀ db : Registry} {action : Action} {call : Awaited AdapterResult}
    {running : Bool} (h : db.calls = db₀.calls) :
    runningAfter db₀ db action call running = running := if_pos h

theorem runningAfter_called {db₀ db : Registry} {action : Action} {call : Awaited AdapterResult}
    {running : Bool} {adapterCall : AdapterCall} (h : db.calls = db₀.calls ++ [adapterCall]) :
    runningAfter db₀ db action call running = callEffect action call running := by
  refine if_neg fun hsame => ?_
  rw [h] at hsame
  exact absurd hsame (by simp)

/-- **One action keeps the invariant**, exit by exit. -/
theorem Course.protected {service : LifecycleService} {surroundings : Surroundings}
    {db₀ : Registry} {applicationId : String} {action : Action} {running : Bool}
    {result : EStateM.Result Raised Registry LifecycleActionResponse}
    (h : Course service surroundings db₀ applicationId action result)
    (hprotected : running = true → Protected db₀ applicationId)
    (htruthful : surroundings.observation.truthful (callEffect action surroundings.call running))
    (hsucceeds : ∀ result, surroundings.call = .returned result → action ≠ .start →
      running = true → result.succeeded = true)
    (hknown : ∀ runtimeState, surroundings.observation = .returned runtimeState →
      callEffect action surroundings.call running = true → runtimeState.status ≠ .unknown)
    (hrunning : runningAfter db₀ (finalState result) action surroundings.call running = true) :
    Protected (finalState result) applicationId := by
  cases h with
  | refused h hcode =>
      rw [finalState, runningAfter_same h.calls] at hrunning
      exact (hprotected hrunning).of_same h.applications h.instances
  | unchecked hstarts hraised hbegun =>
      rw [finalState, runningAfter_same hbegun.calls] at hrunning
      exact hbegun.protected (hprotected hrunning)
  | rejected hpreflight hreason hbegun h =>
      rw [finalState, runningAfter_same (h.calls.trans hbegun.calls)] at hrunning
      exact (hbegun.protected (hprotected hrunning)).of_same h.applications h.instances
  | uncalled hraised h => exact h.protected
  | unobserved hcall hsucceeded hraised h => exact h.protected
  | failed hcall hfailed h hsettled =>
      rw [finalState, runningAfter_called (hsettled.calls.trans h.calls)] at hrunning
      simp only [callEffect, hcall, hfailed, Bool.false_eq_true, if_false] at hrunning
      have hactive := (hprotected hrunning).persistedStatus
      by_cases hstart : action = .start
      · rw [hstart] at h
        exact (not_start_of_active hactive h.admitted.1 h.allowed).elim
      · exact absurd (hsucceeds _ hcall hstart hrunning) (by rw [hfailed]; decide)
  | confirmed hcall hsucceeded hobservation h hsettled =>
      rw [finalState, runningAfter_called (hsettled.calls.trans h.calls)] at hrunning
      rw [hrunning] at htruthful
      obtain ⟨record, hregistered, henabled⟩ := h.registered
      obtain ⟨row, hrow, hstatus⟩ := hsettled.row
      refine Protected.of_status hregistered.stored henabled hsettled.applications hrow ?_
      rw [hstatus]
      exact active_of_truthful htruthful hobservation (hknown _ hobservation hrunning)

/-! ### The invariant over whole runs -/

/-- A step that meets the condition keeps the invariant. -/
theorem Guarded.step {w w' : World} {request : Request} (h : Guarded w)
    (hsteady : w.Steady request) (hstep : WorldStep w request w') : Guarded w' := by
  obtain ⟨htruthful, rfl⟩ := hstep
  refine h.after fun hrunning => ?_
  obtain ⟨service, operation⟩ := request
  cases operation with
  | create manifest => exact (createApplication_effect _ _ manifest w.db).protected (h _ hrunning)
  | update applicationId manifest =>
      exact (updateApplication_effect _ _ applicationId manifest w.db).protected (h _ hrunning)
  | delete applicationId =>
      exact (deleteApplication_effect _ applicationId w.db).protected (h _ hrunning)
  | status applicationId surroundings =>
      have hrunning : w.running applicationId = true := hrunning
      have htruthful : surroundings.observation.truthful (w.running applicationId) := htruthful
      rw [hrunning] at htruthful
      exact (status_effect service surroundings applicationId w.db).protected (h _ hrunning)
        htruthful fun runtimeState hobservation => hsteady runtimeState hobservation hrunning
  | action applicationId name surroundings =>
      cases hname : Action.ofName name with
      | none =>
          simp only [World.workload, hname] at hrunning
          show Protected (finalState (service.action surroundings applicationId name w.db)) _
          rw [action_unknown service surroundings w.db applicationId hname]
          exact h _ hrunning
      | some action =>
          obtain ⟨hsucceeds, hknown⟩ := hsteady action hname
          simp only [World.workload, hname] at hrunning
          exact (action_course service surroundings w.db applicationId hname).protected
            (h applicationId) (htruthful action hname) hsucceeds hknown hrunning

/-- While its workload runs, updating and deleting an application are refused and change nothing. -/
def ConfigurationKept (w : World) : Prop :=
  ∀ applicationId, w.running applicationId = true →
    ∀ (service : LifecycleService) (manifest : ApplicationManifest),
      Refused w.db (updateApplication service.yaml service.requester applicationId manifest w.db) ∧
        Refused w.db (deleteApplication service.requester applicationId w.db)

/-- **When a live workload's configuration is kept.**  In every state of every run in which no
stop or restart fails and no status is unknown while the workload runs, updates and deletions of
running applications are refused. -/
theorem live_configuration_kept (w : World) (h : Reach WorldStep World.Steady {} w) :
    ConfigurationKept w := by
  have hguarded : Guarded w := h.invariant (fun _ hnone => by cases hnone)
    fun _ _ _ hw hsteady hstep => hw.step hsteady hstep
  intro applicationId hrunning service manifest
  have hactive := (hguarded applicationId hrunning).registry_active
  exact ⟨updateApplication_refused _ _ manifest hactive, deleteApplication_refused _ hactive⟩

/-! ### A workload that was started, and one whose stop failed -/

theorem truthful_returned {running : Bool} {runtimeState : RuntimeState}
    (h : runtimeState.status ∈ trueStatuses running) :
    (Awaited.returned runtimeState).truthful running := by
  intro other hother
  cases hother
  exact Or.inr h

/-- The adapter call succeeds or fails, and then this status is observed. -/
def answering (succeeded : Bool) (status : ApplicationStatus) : Surroundings where
  call := .returned { succeeded }
  observation := .returned { status, runtimeIdentifier := "machinedeck-ollama.service" }

def createOllama : Request := ⟨ollamaService, .create ollama⟩

def startOllama : Request := ⟨ollamaService, .action "ollama" "start" (answering true .running)⟩

/-- A stop that fails while the workload goes on running. -/
def failStop : Request := ⟨ollamaService, .action "ollama" "stop" (answering false .running)⟩

/-- The world after `ollama` was created and started. -/
def started : World := (World.after {} createOllama).after startOllama

theorem ofName_start {action : Action} (h : Action.ofName "start" = some action) :
    action = .start := by
  simpa [Action.ofName, eq_comm] using h

theorem ofName_stop {action : Action} (h : Action.ofName "stop" = some action) :
    action = .stop := by
  simpa [Action.ofName, eq_comm] using h

theorem reach_started : Reach WorldStep World.Steady {} started := by
  have hfree : World.Steady {} createOllama := trivial
  have hcreate : WorldStep {} createOllama (World.after {} createOllama) := ⟨trivial, rfl⟩
  have hstart : WorldStep (World.after {} createOllama) startOllama started := by
    refine ⟨fun action haction => ?_, rfl⟩
    rw [ofName_start haction]
    exact truthful_returned (by decide)
  have hsteady : World.Steady (World.after {} createOllama) startOllama := by
    intro action haction
    rw [ofName_start haction]
    exact ⟨fun _ _ h => absurd rfl h, fun _ h _ => by cases h; decide⟩
  exact Reach.next (Reach.next Reach.start hfree hcreate) hsteady hstart

theorem live_configuration_kept_started : ConfigurationKept started :=
  live_configuration_kept started reach_started

set_option maxRecDepth 8000 in
/-- After a failed stop the persisted status is `FAILED`, and the update of the running
application goes through. -/
theorem live_configuration_changed :
    ¬ ∀ w, Reach WorldStep Anyhow {} w → ConfigurationKept w := by
  intro h
  let w := started.after failStop
  have hstop : WorldStep started failStop w := by
    refine ⟨fun action haction => ?_, rfl⟩
    rw [ofName_stop haction]
    have hruns : callEffect .stop (answering false .running).call
        (started.running "ollama") = true := by decide
    exact hruns ▸ truthful_returned (by decide)
  have hreach : Reach WorldStep Anyhow {} w :=
    Reach.next (reach_started.weaken fun _ _ _ => trivial) trivial hstop
  have hrunning : w.running "ollama" = true := by decide
  obtain ⟨raised, hrefused⟩ := (h w hreach "ollama" hrunning ollamaService ollama).1
  have hchanged : returned (updateApplication ollamaYaml {} "ollama" ollama w.db) = true := by
    decide
  have hraised : updateApplication ollamaYaml {} "ollama" ollama w.db = .error raised w.db :=
    hrefused
  rw [hraised] at hchanged
  cases hchanged

end MachineDeck.Lifecycle

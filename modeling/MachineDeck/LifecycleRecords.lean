import MachineDeck.LifecycleAction

/-!
# What an action leaves in the history

* `Recorded` — an execution is finished and has exactly one audit event, which agrees with it;
* `action_recorded_iff` — when an action that created an execution leaves it recorded: when no
  await that the action reaches ends in an exception;
* `HistoryOnly`, `rejected_action_history_only` — a rejected action changes nothing but history.
-/

namespace MachineDeck.Lifecycle

open ProgramTriple

/-! ### Recorded executions -/

/-- An execution that was not there before. -/
def Created (db₀ db : Registry) (execution : ExecutionRecord) : Prop :=
  execution ∈ db.executions ∧ execution.id ∉ db₀.executions.map ExecutionRecord.id

instance (db₀ db : Registry) (execution : ExecutionRecord) :
    Decidable (Created db₀ db execution) :=
  inferInstanceAs (Decidable (_ ∧ _))

/-- The audit events about an execution. -/
def Registry.eventsOf (db : Registry) (id : Uuid) : List AuditEventRecord :=
  db.auditEvents.filter fun event => event.executionId = some id

/-- The execution is finished, and one audit event says how. -/
structure Recorded (db : Registry) (execution : ExecutionRecord) : Prop where
  finished : execution.status = .succeeded ∨ execution.status = .failed
  finishedAt : execution.finishedAt.isSome = true
  event : ∃ event, db.eventsOf execution.id = [event] ∧
    (event.result = "success" ↔ execution.status = .succeeded)

/-- The only new execution is the last one. -/
theorem created_eq {db₀ db : Registry} {execution last : ExecutionRecord}
    (hexecutions : db.executions = db₀.executions ++ [last]) (h : Created db₀ db execution) :
    execution = last := by
  obtain ⟨hmem, hnew⟩ := h
  rw [hexecutions] at hmem
  rcases List.mem_append.mp hmem with hold | hlast
  · exact absurd (List.mem_map_of_mem hold) hnew
  · exact List.mem_singleton.mp hlast

theorem eventsOf_fresh {db₀ : Registry} {id : Uuid} (hfresh : id ∉ db₀.historyIds) :
    db₀.eventsOf id = [] := by
  rw [Registry.eventsOf, List.filter_eq_nil_iff]
  intro event hevent hid
  have hid : event.executionId = some id := of_decide_eq_true hid
  exact hfresh (List.mem_append_right _ (List.mem_filterMap.mpr ⟨event, hevent, hid⟩))

theorem Finished.recorded {db₀ db : Registry} {execution created : ExecutionRecord}
    {finish : Finish} (h : Finished db₀ execution finish db) (hcreated : Created db₀ db created) :
    Recorded db created := by
  obtain ⟨finishedAt, hexecutions⟩ := h.executions
  obtain ⟨event, haudit, hid, hresult, -⟩ := h.auditEvents
  rw [created_eq hexecutions hcreated]
  refine ⟨?_, rfl, event, ?_, ?_⟩
  · cases hsucceeded : finish.succeeded with
    | true => exact Or.inl (by rw [ExecutionRecord.finish, hsucceeded]; rfl)
    | false => exact Or.inr (by rw [ExecutionRecord.finish, hsucceeded]; rfl)
  · have hold : db₀.auditEvents.filter
        (fun event => event.executionId = some execution.id) = [] := eventsOf_fresh h.fresh
    show db.auditEvents.filter (fun event => event.executionId = some execution.id) = [event]
    rw [haudit, List.filter_append, hold, List.nil_append,
      List.filter_cons_of_pos (by rw [hid]; exact decide_eq_true rfl), List.filter_nil]
  · rw [hresult, ExecutionRecord.finish]
    cases finish.succeeded with
    | true => exact ⟨fun _ => rfl, fun _ => rfl⟩
    | false => exact ⟨fun h => absurd h (by decide), fun h => absurd h (by simp)⟩

/-- An execution that is still running is not recorded. -/
theorem Started.not_recorded {db₀ db : Registry} {run : ActionRun} {created : ExecutionRecord}
    (h : Started db₀ run db) (hcreated : Created db₀ db created) : ¬ Recorded db created := by
  intro hrecorded
  have hrunning : created.status = .running := by
    rw [created_eq h.executions hcreated]
    exact h.running
  rcases hrecorded.finished with hstatus | hstatus
  · exact absurd (hrunning.symm.trans hstatus) (by decide)
  · exact absurd (hrunning.symm.trans hstatus) (by decide)

/-- Nothing was created where the history is the same. -/
theorem SameRecords.not_created {db₀ db : Registry} {execution : ExecutionRecord}
    (h : SameRecords db₀ db) : ¬ Created db₀ db execution := by
  intro hcreated
  exact hcreated.2 (List.mem_map_of_mem (h.executions ▸ hcreated.1))

/-! ### Awaits that end in an exception -/

def Awaited.isRaised {α : Type} : Awaited α → Bool
  | .raised _ => true
  | .returned _ => false

def Preflight.isRaised : Preflight → Bool
  | .raised _ => true
  | _ => false

/-- The adapter call raises, or it succeeds and the adapter's `status()` raises. -/
def Surroundings.callInterrupted (surroundings : Surroundings) : Bool :=
  match surroundings.call with
  | .raised _ => true
  | .returned result => result.succeeded && surroundings.observation.isRaised

/-- An await that the action reaches, from the persisted status `current`, ends in an exception
that the action does not handle. -/
def Surroundings.interrupted (surroundings : Surroundings) (action : Action)
    (current : ApplicationStatus) : Bool :=
  action.starts && surroundings.preflight.isRaised ||
    passesPreflight action surroundings.preflight &&
      requireTransition current action.firstStatus && surroundings.callInterrupted

theorem Preflight.not_isRaised {preflight : Preflight}
    (h : ∀ exception, preflight ≠ .raised exception) : preflight.isRaised = false := by
  cases preflight with
  | raised exception => exact absurd rfl (h exception)
  | _ => rfl

/-- An action that reached its adapter was not interrupted in its preflight. -/
theorem Entered.interrupted {service : LifecycleService} {surroundings : Surroundings}
    {db₀ db : Registry} {applicationId : String} {action : Action} {run : ActionRun}
    (h : Entered service surroundings.preflight db₀ applicationId action run db) :
    surroundings.interrupted action (db₀.persistedStatus applicationId) =
      surroundings.callInterrupted := by
  have hpreflight : (action.starts && surroundings.preflight.isRaised) = false := by
    have hpassed := h.passed
    rw [passesPreflight] at hpassed
    cases hstarts : action.starts with
    | false => rfl
    | true =>
        rw [hstarts] at hpassed
        cases hp : surroundings.preflight with
        | raised exception => rw [hp] at hpassed; cases hpassed
        | _ => rfl
  rw [Surroundings.interrupted, hpreflight, h.passed, h.allowed]
  rfl

/-- **Which exits leave an execution recorded.** -/
theorem Course.recorded_iff {service : LifecycleService} {surroundings : Surroundings}
    {db₀ : Registry} {applicationId : String} {action : Action}
    {result : EStateM.Result Raised Registry LifecycleActionResponse}
    (h : Course service surroundings db₀ applicationId action result)
    {execution : ExecutionRecord} (hcreated : Created db₀ (finalState result) execution) :
    Recorded (finalState result) execution ↔
      surroundings.interrupted action (db₀.persistedStatus applicationId) = false := by
  cases h with
  | refused h hcode => exact absurd hcreated h.not_created
  | unchecked hstarts hraised hbegun =>
      have hinterrupted : surroundings.interrupted action (db₀.persistedStatus applicationId) =
          true := by
        rw [Surroundings.interrupted, hstarts, hraised]
        rfl
      rw [hinterrupted]
      exact ⟨fun h => absurd h (hbegun.started.not_recorded hcreated), fun h => by cases h⟩
  | rejected hpreflight hreason hbegun h =>
      obtain ⟨finish, hfinished, -, -⟩ := h.finished
      refine iff_of_true (hfinished.recorded hcreated) ?_
      have hraised : (action.starts && surroundings.preflight.isRaised) = false := by
        cases hstarts : action.starts with
        | false => rfl
        | true => rw [Preflight.not_isRaised (hpreflight hstarts), Bool.and_false]
      rw [Surroundings.interrupted, hraised]
      rcases hreason with ⟨h, -⟩ | h
      · rw [h]
        rfl
      · rw [h, Bool.and_false, Bool.false_and]
        rfl
  | uncalled hraised h =>
      have hinterrupted : surroundings.callInterrupted = true := by
        rw [Surroundings.callInterrupted, hraised]
      rw [h.interrupted, hinterrupted]
      exact ⟨fun hr => absurd hr (h.started.not_recorded hcreated), fun h => by cases h⟩
  | failed hcall hfailed h hsettled =>
      refine iff_of_true (hsettled.finished.recorded hcreated) ?_
      rw [h.interrupted, Surroundings.callInterrupted, hcall]
      dsimp only
      rw [hfailed]
      rfl
  | unobserved hcall hsucceeded hraised h =>
      have hinterrupted : surroundings.callInterrupted = true := by
        rw [Surroundings.callInterrupted, hcall]
        dsimp only
        rw [hsucceeded, hraised]
        rfl
      rw [h.interrupted, hinterrupted]
      exact ⟨fun hr => absurd hr (h.started.not_recorded hcreated), fun h => by cases h⟩
  | confirmed hcall hsucceeded hobservation h hsettled =>
      refine iff_of_true (hsettled.finished.recorded hcreated) ?_
      rw [h.interrupted, Surroundings.callInterrupted, hcall]
      dsimp only
      rw [hobservation, Awaited.isRaised, Bool.and_false]

/-! ### A registered application -/

/-- `ollama`, disabled. -/
def restingOllama : ApplicationManifest := { ollama with enabled := false }

/-- The lines of a command. -/
def commandText : Runtime → String
  | .process runtime => String.join (runtime.command.map fun argument => "  - " ++ argument ++ "\n")
  | .compose _ => ""

/-- The text that is stored for `ollama` and its variants. -/
def ollamaText (manifest : ApplicationManifest) : String :=
  "version: 1\nid: ollama\nname: Ollama\ndescription: ''\nenabled: " ++
  (if manifest.enabled then "true" else "false") ++
  "\nruntime:\n  type: process\n  working_dir: /srv/ollama\n  command:\n" ++
  commandText manifest.runtime ++
  "environment: \x7b\x7d\nports:\n- id: api\n  name: API\n  protocol: http\n  host_port: 11434\n" ++
  "  bind_address: 127.0.0.1\n  path: /\n  primary: false\n  open_in_browser: false\n" ++
  "  health_path: null\ntags: []\n"

def ollamaYaml : ManifestYaml where
  dump := ollamaText
  load text := [ollama, restingOllama].find? fun manifest => text = ollamaText manifest

def ollamaService : LifecycleService := { yaml := ollamaYaml, host := ollamaHost }

/-- The registry after `ollama` was created. -/
def registered : Registry := finalState (createApplication ollamaYaml {} ollama {})

/-- The adapter's `start()` cannot write the unit file. -/
def diskFull : Surroundings where
  call := .raised "OSError: [Errno 28] No space left on device"
  observation := .returned { status := .stopped, runtimeIdentifier := "machinedeck-ollama.service" }

/-- The execution that a start with a full disk leaves behind. -/
def stranded : ExecutionRecord where
  id := 3
  applicationId := "ollama"
  action := .start
  status := .running
  requestedBy := "phase1-api"
  requestedAt := 4
  startedAt := some 3

set_option maxRecDepth 4000 in
theorem created_stranded : Created registered
    (finalState (ollamaService.action diskFull "ollama" "start" registered)) stranded := by decide

/-- **When an action is recorded.**  An action that created an execution leaves it finished with
exactly one agreeing audit event, if and only if no await that it reaches ends in an exception
other than a `PortDiscoveryError`. -/
theorem action_recorded_iff (service : LifecycleService) (surroundings : Surroundings)
    (db₀ : Registry) (applicationId name : String) (execution : ExecutionRecord)
    (hcreated : Created db₀
      (finalState (service.action surroundings applicationId name db₀)) execution) :
    ∃ action, Action.ofName name = some action ∧
      (Recorded (finalState (service.action surroundings applicationId name db₀)) execution ↔
        surroundings.interrupted action (db₀.persistedStatus applicationId) = false) := by
  cases hname : Action.ofName name with
  | none =>
      have hrun : finalState (service.action surroundings applicationId name db₀) = db₀ := by
        simp only [LifecycleService.action, hname, run_throw, finalState]
      rw [hrun] at hcreated
      exact absurd hcreated (SameRecords.refl db₀).not_created
  | some action =>
      have hrun : service.action surroundings applicationId name db₀ =
          service.lockedAction surroundings applicationId action db₀ := by
        simp only [LifecycleService.action, hname]
      rw [hrun] at hcreated ⊢
      exact ⟨action, rfl,
        (lockedAction_course service surroundings db₀ applicationId action).recorded_iff hcreated⟩

/-- A start whose adapter cannot write the unit file meets neither side. -/
theorem action_recorded_iff_disk_full :
    ∃ action, Action.ofName "start" = some action ∧
      (Recorded (finalState (ollamaService.action diskFull "ollama" "start" registered)) stranded ↔
        diskFull.interrupted action (registered.persistedStatus "ollama") = false) :=
  action_recorded_iff ollamaService diskFull registered "ollama" "start" stranded created_stranded

/-- Not every action is recorded: the start with a full disk leaves its execution running. -/
theorem action_left_unrecorded : ¬ ∀ (service : LifecycleService) (surroundings : Surroundings)
    (db₀ : Registry) (applicationId name : String) (execution : ExecutionRecord),
    Created db₀ (finalState (service.action surroundings applicationId name db₀)) execution →
      Recorded (finalState (service.action surroundings applicationId name db₀)) execution := by
  intro h
  have hrecorded := h ollamaService diskFull registered "ollama" "start" stranded created_stranded
  exact absurd hrecorded.finished (by decide)

/-! ### Rejected actions -/

/-- Nothing but the history has changed, and what was added to it carries the error's code. -/
structure HistoryOnly (db₀ : Registry) (error : LifecycleError) (db : Registry) : Prop where
  applications : db.applications = db₀.applications
  instances : db.instances = db₀.instances
  calls : db.calls = db₀.calls
  history : (db.executions = db₀.executions ∧ db.auditEvents = db₀.auditEvents) ∨
    ∃ execution event, db.executions = db₀.executions ++ [execution] ∧
      execution.status = .failed ∧ execution.errorCode = some error.code ∧
      db.auditEvents = db₀.auditEvents ++ [event] ∧
      event.result = "failure" ∧ event.errorCode = some error.code

theorem SameRecords.historyOnly {db₀ db : Registry} (h : SameRecords db₀ db)
    (error : LifecycleError) : HistoryOnly db₀ error db :=
  ⟨h.applications, h.instances, h.calls, Or.inl ⟨h.executions, h.auditEvents⟩⟩

/-- A rejection after the execution was created, of an application with an instance row. -/
theorem Rejected.historyOnly {service : LifecycleService} {db₀ db db' : Registry}
    {applicationId : String} {action : Action} {run : ActionRun} {error : LifecycleError}
    (hbegun : Begun service db₀ applicationId action run db)
    (hrow : (db₀.instances.lookup applicationId).isSome = true)
    (h : Rejected db₀ run.execution db error db') : HistoryOnly db₀ error db' := by
  obtain ⟨row, hrow⟩ := Option.isSome_iff_exists.mp hrow
  obtain ⟨finish, hfinished, hfailed, hcode⟩ := h.finished
  obtain ⟨finishedAt, hexecutions⟩ := hfinished.executions
  obtain ⟨event, haudit, -, hresult, herror⟩ := hfinished.auditEvents
  have hkept := hbegun.kept row (hbegun.name.1 ▸ hrow)
  refine ⟨h.applications.trans hbegun.started.applications, h.instances.trans hkept,
    h.calls.trans hbegun.calls, Or.inr ⟨_, event, hexecutions, ?_, hcode, haudit, ?_, ?_⟩⟩
  · rw [ExecutionRecord.finish, hfailed]
    rfl
  · rw [hresult, hfailed]
    rfl
  · rw [herror, hcode]

/-- **A rejected action changes nothing but history.**  Whenever `action` raises a
`LifecycleError` for an application with an instance row, no adapter was called, the registry rows
and the instance rows are as before, and at most one failed execution and one failure event were
appended, both with the raised code. -/
theorem rejected_action_history_only (service : LifecycleService) (surroundings : Surroundings)
    (db₀ db : Registry) (applicationId name : String) (error : LifecycleError)
    (hrow : (db₀.instances.lookup applicationId).isSome = true)
    (hraised : service.action surroundings applicationId name db₀ = .error (.lifecycle error) db) :
    HistoryOnly db₀ error db := by
  cases hname : Action.ofName name with
  | none =>
      simp only [LifecycleService.action, hname, run_throw, EStateM.Result.error.injEq] at hraised
      rw [← hraised.2]
      exact (SameRecords.refl db₀).historyOnly error
  | some action =>
      simp only [LifecycleService.action, hname] at hraised
      have hcourse := lockedAction_course service surroundings db₀ applicationId action
      rw [hraised] at hcourse
      cases hcourse with
      | refused h hcode => exact h.historyOnly error
      | rejected hpreflight hreason hbegun h => exact h.historyOnly hbegun hrow

/-- The declared port of the application is taken. -/
def occupied : Surroundings where
  preflight := .listed [{ protocol := "tcp", bindAddress := "127.0.0.1", port := 11434 }]
  call := .returned { succeeded := true }
  observation := .returned { status := .running, runtimeIdentifier := "machinedeck-ollama.service" }

set_option maxRecDepth 4000 in
theorem rejected_action_history_only_conflict :
    HistoryOnly registered
      { code := "PORT_CONFLICT"
        message := "One or more declared ports are already in use for ollama"
        conflicts := [{ protocol := "tcp", bindAddress := "127.0.0.1", port := 11434 }] }
      (finalState (ollamaService.action occupied "ollama" "start" registered)) :=
  rejected_action_history_only ollamaService occupied registered _ "ollama" "start" _ (by decide)
    rfl

end MachineDeck.Lifecycle

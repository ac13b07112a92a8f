import MachineDeck.LifecycleRules

/-!
# The course of a lifecycle action

One rule for each piece of `action`, over the database `db₀` in which the action began.

* `Started` — the execution is there, still running, and the action holds its instance row;
* `Finished` — the execution is finished and has its audit event;
* `beginAction_spec`, `afterPreflight_spec`, `afterCall_spec`, `afterStatus_spec`;
* `Course`, `lockedAction_course` — every exit of an action, with what it leaves.
-/

namespace MachineDeck.Lifecycle

open ProgramTriple

/-! ### The execution and its audit event -/

/-- An action under way: its execution is the only difference in the history. -/
structure Started (db₀ : Registry) (run : ActionRun) (db : Registry) : Prop where
  applications : db.applications = db₀.applications
  others : ∀ other, other ≠ run.applicationId →
    db.instances.lookup other = db₀.instances.lookup other
  executions : db.executions = db₀.executions ++ [run.execution]
  auditEvents : db.auditEvents = db₀.auditEvents
  attached : Attached db run.state
  key : run.state.applicationId = run.applicationId
  running : run.execution.status = .running
  fresh : run.execution.id ∉ db₀.historyIds

/-- The execution has been finished, and one audit event about it been written. -/
structure Finished (db₀ : Registry) (execution : ExecutionRecord) (finish : Finish)
    (db : Registry) : Prop where
  executions : ∃ finishedAt,
    db.executions = db₀.executions ++ [execution.finish finish finishedAt]
  auditEvents : ∃ event, db.auditEvents = db₀.auditEvents ++ [event] ∧
    event.executionId = some execution.id ∧
    event.result = (if finish.succeeded then "success" else "failure") ∧
    event.errorCode = finish.errorCode
  fresh : execution.id ∉ db₀.historyIds

theorem map_finish_of_fresh {executions : List ExecutionRecord} {id : Uuid}
    (h : ∀ execution ∈ executions, execution.id ≠ id)
    (f : ExecutionRecord → ExecutionRecord) :
    executions.map (fun execution => if execution.id = id then f execution else execution) =
      executions := by
  induction executions with
  | nil => rfl
  | cons execution rest ih =>
      have hrest : ∀ e ∈ rest, e.id ≠ id := fun e he => h e (List.mem_cons_of_mem _ he)
      rw [List.map_cons, if_neg (h execution List.mem_cons_self), ih hrest]

/-- Finishing touches no row but the execution's. -/
theorem finishExecution_spec (service : LifecycleService) {db₀ db : Registry}
    {execution : ExecutionRecord} (hexecutions : db.executions = db₀.executions ++ [execution])
    (haudit : db.auditEvents = db₀.auditEvents) (hfresh : execution.id ∉ db₀.historyIds)
    (finish : Finish) :
    Triple (fun db' => db' = db) (service.finishExecution execution finish)
      (fun _ db' => Finished db₀ execution finish db' ∧ db'.applications = db.applications ∧
        db'.instances = db.instances ∧ db'.calls = db.calls)
      (fun _ _ => False) := by
  intro db' hdb'
  rw [hdb']
  refine ⟨⟨⟨db.clock, ?_⟩, ?_, hfresh⟩, rfl, rfl, rfl⟩
  · have hold : ∀ e ∈ db₀.executions, e.id ≠ execution.id := by
      intro e he hid
      exact hfresh (List.mem_append_left _ (hid ▸ List.mem_map_of_mem he))
    show db.executions.map _ = _
    rw [hexecutions, List.map_append, map_finish_of_fresh hold, List.map_singleton, if_pos rfl]
  · refine ⟨_, congrArg (· ++ [_]) haudit, rfl, rfl, ?_⟩
    cases hcode : finish.errorCode with
    | none => rfl
    | some code => rfl

/-! ### Before the preflight -/

/-- What `beginAction` leaves when it returns. -/
structure Begun (service : LifecycleService) (db₀ : Registry) (applicationId : String)
    (action : Action) (run : ActionRun) (db : Registry) : Prop where
  started : Started db₀ run db
  name : run.applicationId = applicationId ∧ run.action = action
  registered : ∃ record, Registered service db₀ run.applicationId record run.manifest ∧
    record.enabled = true
  status : run.state.now.status = db₀.persistedStatus run.applicationId
  admitted : alreadyRunning run.action run.state.now.status = false ∧
    notRunning run.action run.state.now.status = false
  calls : db.calls = db₀.calls
  kept : ∀ row, db₀.instances.lookup run.applicationId = some row →
    db.instances = db₀.instances

/-- A new execution, and nothing else. -/
structure Opened (db : Registry) (execution : ExecutionRecord) (db' : Registry) : Prop where
  applications : db'.applications = db.applications
  instances : db'.instances = db.instances
  executions : db'.executions = db.executions ++ [execution]
  auditEvents : db'.auditEvents = db.auditEvents
  calls : db'.calls = db.calls
  running : execution.status = .running
  fresh : execution.id ∉ db.historyIds

theorem newExecution_spec (service : LifecycleService) (applicationId : String) (action : Action)
    (db : Registry) :
    Triple (fun db' => db' = db) (service.newExecution applicationId action) (Opened db)
      (fun _ _ => False) := by
  intro db' hdb'
  rw [hdb']
  exact ⟨rfl, rfl, rfl, rfl, rfl, rfl, fun h => absurd (Registry.lt_unusedUuid h) (lt_irrefl _)⟩

/-- The commit of an object that was just loaded changes nothing. -/
theorem commitFound_spec {db₀ db : Registry} {applicationId : String} {state : InstanceObject}
    {row : ApplicationInstanceRecord} (h : FoundState db₀ applicationId state)
    (hrow : db₀.instances.lookup applicationId = some row) :
    Triple (fun db' => db' = db) (commitInstance state) (fun _ db' => db' = db)
      (fun _ _ => False) := by
  obtain ⟨hloaded, hnow⟩ := h.row row hrow
  unfold commitInstance
  rw [hloaded]
  dsimp only
  rw [if_pos hnow]
  exact Triple.pure fun _ hdb => hdb

/-- `require` of a fact that the continuation uses. -/
theorem require_fact {condition : Bool} {raised : Raised} {db : Registry}
    {E : Raised → Registry → Prop} (hE : E raised db) :
    Triple (fun db' => db' = db) (require condition raised)
      (fun _ db' => condition = true ∧ db' = db) E :=
  require_spec (fun hcond _ h => ⟨hcond, h⟩) (fun _ _ h => h ▸ hE)

theorem beginAction_spec (service : LifecycleService) (applicationId : String) (action : Action)
    (db₀ : Registry) :
    Triple (fun db => db = db₀) (service.beginAction applicationId action)
      (Begun service db₀ applicationId action)
      (fun raised db => SameRecords db₀ db ∧ NotTransition raised) := by
  refine Triple.bind ((application_spec service applicationId db₀).conseq (fun _ h => h)
    (fun _ _ h => h) (fun _ db h => ⟨h.1 ▸ SameRecords.refl db₀, h.2⟩)) fun found => ?_
  obtain ⟨record, manifest⟩ := found
  refine Triple.forEach fun db hfound => ?_
  obtain ⟨hregistered, hdb⟩ := hfound
  rw [hdb]
  refine Triple.bind (require_fact ⟨SameRecords.refl db₀, notTransition_of_code (by decide)⟩)
    fun _ => Triple.forEach fun db h => ?_
  obtain ⟨henabled, hdb⟩ := h
  rw [hdb]
  refine Triple.bind ((stateRecord_spec applicationId db₀).conseq (fun _ h => h) (fun _ _ h => h)
    (fun _ _ h => h.elim)) fun state => Triple.forEach fun db₁ h => ?_
  obtain ⟨hstate, hsame⟩ := h
  refine Triple.bind (require_fact ⟨hsame, notTransition_of_code (by decide)⟩)
    fun _ => Triple.forEach fun db h => ?_
  obtain ⟨hidle, hdb⟩ := h
  rw [hdb]
  refine Triple.bind (require_fact ⟨hsame, notTransition_of_code (by decide)⟩)
    fun _ => Triple.forEach fun db h => ?_
  obtain ⟨hup, hdb⟩ := h
  rw [hdb]
  refine Triple.bind ((newExecution_spec service applicationId action db₁).conseq (fun _ h => h)
    (fun _ _ h => h) (fun _ _ h => h.elim)) fun execution => Triple.forEach fun db₂ hopened => ?_
  have happlication : (db₂.applications.lookup applicationId).isSome = true := by
    rw [hopened.applications, hsame.applications, hregistered.stored]
    rfl
  have hcommit := hstate.committable (hopened.instances.trans hsame.instances) happlication
  have hkept : Triple (fun db => db = db₂) (commitInstance state)
      (fun _ db => ∀ row, db₀.instances.lookup applicationId = some row →
        db.instances = db₀.instances) (fun _ _ => False) := by
    cases hrow : db₀.instances.lookup applicationId with
    | none =>
        refine (commitInstance_spec hcommit).conseq (fun _ h => h) (fun _ _ _ row h => ?_)
          (fun _ _ h => h)
        cases h
    | some row =>
        refine (commitFound_spec hstate hrow).conseq (fun _ h => h) (fun _ _ h _ _ => ?_)
          (fun _ _ h => h)
        rw [h]
        exact hopened.instances.trans hsame.instances
  refine Triple.bind (((commitInstance_spec hcommit).and hkept).conseq (fun _ h => ⟨h, h⟩)
    (fun _ _ h => h) (fun _ _ h => h.1.elim)) fun state' => Triple.pure fun db₃ h => ?_
  obtain ⟨⟨hattached, hkey, hnow, hwritten⟩, hkept⟩ := h
  rw [hstate.key] at hkey hwritten
  have hids : db₁.historyIds = db₀.historyIds := by
    rw [Registry.historyIds, hsame.executions, hsame.auditEvents]
    rfl
  refine ⟨⟨?_, fun other hother => ?_, ?_, ?_, hattached, hkey, hopened.running, ?_⟩,
    ⟨rfl, rfl⟩, ⟨record, hregistered, henabled⟩, ?_, ?_, ?_, hkept⟩
  · rw [hwritten.applications, hopened.applications, hsame.applications]
  · rw [hwritten.others other hother, hopened.instances, hsame.instances]
  · rw [hwritten.executions, hopened.executions, hsame.executions]
  · rw [hwritten.auditEvents, hopened.auditEvents, hsame.auditEvents]
  · exact hids ▸ hopened.fresh
  · rw [hnow, hstate.status]
  · dsimp only
    rw [hnow]
    exact ⟨by simpa using hidle, by simpa using hup⟩
  · rw [hwritten.calls, hopened.calls, hsame.calls]

/-! ### Rejections -/

/-- A `LifecycleError` after the execution was created: the execution and its audit event carry
its code, and nothing else has changed since `db`. -/
structure Rejected (db₀ : Registry) (execution : ExecutionRecord) (db : Registry)
    (error : LifecycleError) (db' : Registry) : Prop where
  finished : ∃ finish, Finished db₀ execution finish db' ∧ finish.succeeded = false ∧
    finish.errorCode = some error.code
  applications : db'.applications = db.applications
  instances : db'.instances = db.instances
  calls : db'.calls = db.calls

theorem reject_spec {α : Type} (service : LifecycleService) {db₀ db : Registry} {run : ActionRun}
    (h : Started db₀ run db) {finish : Finish} {error : LifecycleError}
    (hfailed : finish.succeeded = false) (hcode : finish.errorCode = some error.code)
    (Q : α → Registry → Prop) :
    Triple (fun db' => db' = db) (service.reject run.execution finish (.lifecycle error)) Q
      (fun raised db' => raised = .lifecycle error ∧
        Rejected db₀ run.execution db error db') := by
  refine Triple.bind ((finishExecution_spec service h.executions h.auditEvents h.fresh
    finish).conseq (fun _ h => h) (fun _ _ h => h) (fun _ _ h => h.elim)) fun _ => ?_
  refine Triple.throw fun db' hfinished => ?_
  obtain ⟨hfinished, happlications, hinstances, hcalls⟩ := hfinished
  exact ⟨rfl, ⟨finish, hfinished, hfailed, hcode⟩, happlications, hinstances, hcalls⟩

/-- A preflight without conflicts. -/
def Preflight.clear : Preflight → Bool
  | .listed conflicts => conflicts.isEmpty
  | _ => false

/-- What the preflight raises: its own exception, or a rejection. -/
inductive Blocked (db₀ : Registry) (run : ActionRun) (preflight : Preflight) (db : Registry) :
    Raised → Registry → Prop where
  | external {exception : String} (hpreflight : preflight = .raised exception) :
      Blocked db₀ run preflight db (.external exception) db
  | rejected {error : LifecycleError} {db' : Registry}
      (hpreflight : ∀ exception, preflight ≠ .raised exception)
      (hclear : preflight.clear = false) (hcode : error.code ≠ "STATE_TRANSITION_INVALID")
      (h : Rejected db₀ run.execution db error db') :
      Blocked db₀ run preflight db (.lifecycle error) db'

theorem blocked_of_reject {db₀ db db' : Registry} {run : ActionRun} {preflight : Preflight}
    {raised : Raised} {error : LifecycleError}
    (hpreflight : ∀ exception, preflight ≠ .raised exception) (hclear : preflight.clear = false)
    (hcode : error.code ≠ "STATE_TRANSITION_INVALID")
    (h : raised = .lifecycle error ∧ Rejected db₀ run.execution db error db') :
    Blocked db₀ run preflight db raised db' := by
  rw [h.1]
  exact Blocked.rejected hpreflight hclear hcode h.2

theorem checkPorts_spec (service : LifecycleService) {db₀ db : Registry} {run : ActionRun}
    (h : Started db₀ run db) (preflight : Preflight) :
    Triple (fun db' => db' = db) (service.checkPorts run preflight)
      (fun _ db' => preflight.clear = true ∧ db' = db) (Blocked db₀ run preflight db) := by
  cases preflight with
  | raised exception =>
      refine Triple.throw fun db' hdb' => ?_
      rw [hdb']
      exact Blocked.external rfl
  | unavailable message =>
      exact (reject_spec service h rfl rfl _).conseq (fun _ h => h) (fun _ _ h => h)
        (fun _ _ h => blocked_of_reject (fun _ h => by cases h) rfl (by decide) h)
  | listed conflicts =>
      by_cases hempty : conflicts.isEmpty = true
      · simp only [LifecycleService.checkPorts, hempty, if_true]
        exact Triple.pure fun db' hdb' => ⟨hempty, hdb'⟩
      · simp only [LifecycleService.checkPorts, hempty]
        have hclear : (Preflight.listed conflicts).clear = false := by
          simpa only [Preflight.clear, Bool.not_eq_true] using hempty
        have hcode : "PORT_CONFLICT" ≠ "STATE_TRANSITION_INVALID" := by decide
        exact (reject_spec service h rfl rfl _).conseq (fun _ h => h) (fun _ _ h => h)
          (fun _ _ h => blocked_of_reject (fun _ h => by cases h) hclear hcode h)

/-! ### Transitions -/

theorem requireTransition_spec (service : LifecycleService) {db₀ db : Registry} {run : ActionRun}
    (h : Started db₀ run db) (current target : ApplicationStatus) :
    Triple (fun db' => db' = db) (service.requireTransition run current target)
      (fun _ db' => requireTransition current target = true ∧ db' = db)
      (fun raised db' => requireTransition current target = false ∧
        ∃ error, raised = .lifecycle error ∧ Rejected db₀ run.execution db error db') := by
  unfold LifecycleService.requireTransition
  split
  · rename_i hallowed
    exact Triple.pure fun db' hdb' => ⟨hallowed, hdb'⟩
  · rename_i hrefused
    exact (reject_spec service h rfl rfl _).conseq (fun _ h => h) (fun _ _ h => h)
      (fun _ _ h => ⟨by simpa using hrefused, _, h⟩)

/-- What the transitions before the adapter call leave. -/
structure Entering (run : ActionRun) (db : Registry) (state : InstanceObject) (db' : Registry) :
    Prop where
  attached : Attached db' state
  key : state.applicationId = run.state.applicationId
  status : state.now.status = run.action.enteredStatus
  written : WrittenInstance run.state.applicationId db db'
  allowed : requireTransition run.state.now.status run.action.firstStatus = true

/-- A transition of `run`'s own row, once it is allowed. -/
theorem enter_spec {db : Registry} {run : ActionRun} (h : Attached db run.state)
    (hallowed : requireTransition run.state.now.status run.action.firstStatus = true)
    {E : Raised → Registry → Prop} :
    Triple (fun db' => db' = db) (transition run.state run.action.enteredStatus)
      (Entering run db) E :=
  (transition_spec h.committable _ none).conseq (fun _ h => h)
    (fun _ _ hm => ⟨hm.attached, hm.applicationId, hm.status, hm.written, hallowed⟩)
    (fun _ _ h => h.elim)

/-- Only the first transition of an action can be refused. -/
theorem enterTransitions_spec (service : LifecycleService) {db₀ db : Registry} {run : ActionRun}
    (h : Started db₀ run db) :
    Triple (fun db' => db' = db) (service.enterTransitions run) (Entering run db)
      (fun raised db' => requireTransition run.state.now.status run.action.firstStatus = false ∧
        ∃ error, raised = .lifecycle error ∧ Rejected db₀ run.execution db error db') := by
  unfold LifecycleService.enterTransitions
  cases haction : run.action with
  | stop =>
      refine Triple.bind (requireTransition_spec service h _ _) fun _ => Triple.forEach fun db' hr => ?_
      obtain ⟨hallowed, hdb'⟩ := hr
      rw [hdb']
      have henter := @enter_spec db run h.attached (by rw [haction]; exact hallowed)
      rw [haction] at henter
      exact henter
  | restart =>
      refine Triple.bind (requireTransition_spec service h _ _) fun _ => Triple.forEach fun db' hr => ?_
      obtain ⟨hallowed, hdb'⟩ := hr
      rw [hdb']
      have henter := @enter_spec db run h.attached (by rw [haction]; exact hallowed)
      rw [haction] at henter
      exact henter
  | start =>
      refine Triple.bind (requireTransition_spec service h _ _) fun _ => Triple.forEach fun db' hr => ?_
      obtain ⟨hallowed, hdb'⟩ := hr
      rw [hdb']
      refine Triple.bind ((transition_spec h.attached.committable .checking none).conseq (fun _ h => h)
        (fun _ _ h => h) (fun _ _ h => h.elim)) fun state => Triple.forEach fun db₁ hchecking => ?_
      rw [hchecking.status]
      refine Triple.bind (R := fun _ db => db = db₁) (Triple.pure fun _ h => h) fun _ => ?_
      refine (transition_spec hchecking.attached.committable .starting none).conseq (fun _ h => h)
        (fun state' db' hm => ?_) (fun _ _ h => h.elim)
      have hkey : state.applicationId = run.state.applicationId := hchecking.applicationId
      refine ⟨hm.attached, hm.applicationId.trans hkey, ?_, ?_, ?_⟩
      · rw [hm.status, haction]
        rfl
      · exact hchecking.written.trans (hkey ▸ hm.written)
      · rw [haction]
        exact hallowed

/-! ### The adapter call -/

theorem Started.written {db₀ db db' : Registry} {run : ActionRun} {state : InstanceObject}
    (h : Started db₀ run db) (hwritten : WrittenInstance run.applicationId db db')
    (hattached : Attached db' state) (hkey : state.applicationId = run.applicationId) :
    Started db₀ { run with state } db' where
  applications := hwritten.applications.trans h.applications
  others other hother := (hwritten.others other hother).trans (h.others other hother)
  executions := hwritten.executions.trans h.executions
  auditEvents := hwritten.auditEvents.trans h.auditEvents
  attached := hattached
  key := hkey
  running := h.running
  fresh := h.fresh

/-- Whether the preflight of an action lets it pass. -/
def passesPreflight (action : Action) (preflight : Preflight) : Bool :=
  !action.starts || preflight.clear

/-- An action whose adapter is being called, and what let it come that far. -/
structure Entered (service : LifecycleService) (preflight : Preflight) (db₀ : Registry)
    (applicationId : String) (action : Action) (run : ActionRun) (db : Registry) : Prop where
  started : Started db₀ run db
  name : run.applicationId = applicationId ∧ run.action = action
  registered : ∃ record, Registered service db₀ applicationId record run.manifest ∧
    record.enabled = true
  passed : passesPreflight action preflight = true
  allowed : requireTransition (db₀.persistedStatus applicationId) action.firstStatus = true
  admitted : alreadyRunning action (db₀.persistedStatus applicationId) = false ∧
    notRunning action (db₀.persistedStatus applicationId) = false
  status : run.state.now.status = action.enteredStatus
  calls : db.calls = db₀.calls ++ [⟨run.manifest, action⟩]

/-- What ends an action between its preflight and its adapter call. -/
inductive Turned (db₀ : Registry) (run : ActionRun) (preflight : Preflight) (db : Registry) :
    Raised → Registry → Prop where
  | external {exception : String} (hstarts : run.action.starts = true)
      (hpreflight : preflight = .raised exception) :
      Turned db₀ run preflight db (.external exception) db
  | rejected {error : LifecycleError} {db' : Registry}
      (hpreflight : run.action.starts = true → ∀ exception, preflight ≠ .raised exception)
      (hreason : passesPreflight run.action preflight = false ∧
          error.code ≠ "STATE_TRANSITION_INVALID" ∨
        requireTransition run.state.now.status run.action.firstStatus = false)
      (h : Rejected db₀ run.execution db error db') :
      Turned db₀ run preflight db (.lifecycle error) db'

theorem Blocked.turned {db₀ db db' : Registry} {run : ActionRun} {preflight : Preflight}
    {raised : Raised} (h : Blocked db₀ run preflight db raised db')
    (hstarts : run.action.starts = true) : Turned db₀ run preflight db raised db' := by
  cases h with
  | external hpreflight => exact Turned.external hstarts hpreflight
  | rejected hpreflight hclear hcode h =>
      refine Turned.rejected (fun _ => hpreflight) (Or.inl ⟨?_, hcode⟩) h
      rw [passesPreflight, hstarts, hclear]
      rfl

theorem portPreflight_spec (service : LifecycleService) {db₀ db : Registry} {run : ActionRun}
    (h : Started db₀ run db) (preflight : Preflight) :
    Triple (fun db' => db' = db) (service.portPreflight run preflight)
      (fun _ db' => passesPreflight run.action preflight = true ∧ db' = db)
      (Turned db₀ run preflight db) := by
  unfold LifecycleService.portPreflight
  split
  · rename_i hstarts
    refine (checkPorts_spec service h preflight).conseq (fun _ h => h) (fun _ db' hc => ?_)
      (fun _ _ hb => hb.turned hstarts)
    refine ⟨?_, hc.2⟩
    rw [passesPreflight, hc.1, Bool.or_true]
  · rename_i hstops
    refine Triple.pure fun db' hdb' => ⟨?_, hdb'⟩
    rw [passesPreflight, Bool.eq_false_iff.mpr hstops]
    rfl

theorem afterPreflight_spec (service : LifecycleService) {db₀ db : Registry}
    {applicationId : String} {action : Action} {run : ActionRun} (preflight : Preflight)
    (h : Begun service db₀ applicationId action run db) :
    Triple (fun db' => db' = db) (service.afterPreflight run preflight)
      (Entered service preflight db₀ applicationId action)
      (Turned db₀ run preflight db) := by
  obtain ⟨happ, haction⟩ := h.name
  refine Triple.bind (portPreflight_spec service h.started preflight) fun _ =>
    Triple.forEach fun db' hp => ?_
  obtain ⟨hpassed, hdb'⟩ := hp
  rw [hdb']
  refine Triple.bind ((enterTransitions_spec service h.started).conseq (fun _ h => h)
    (fun _ _ h => h) (fun raised db' hr => ?_)) fun state => Triple.forEach fun db₁ hentering => ?_
  · obtain ⟨hrefused, error, rfl, hr⟩ := hr
    refine Turned.rejected (fun hstarts exception hraised => ?_) (Or.inr hrefused) hr
    rw [passesPreflight, hstarts, hraised] at hpassed
    cases hpassed
  · have hkey := h.started.key
    have hwritten : WrittenInstance run.applicationId db db₁ := hkey ▸ hentering.written
    have hstarted := h.started.written hwritten hentering.attached (hentering.key.trans hkey)
    intro db' hdb'
    rw [hdb']
    have hstatus : run.state.now.status = db₀.persistedStatus applicationId := happ ▸ h.status
    refine ⟨⟨hstarted.applications, hstarted.others, hstarted.executions, hstarted.auditEvents,
      hstarted.attached.of_same rfl, hstarted.key, hstarted.running, hstarted.fresh⟩,
      h.name, happ ▸ h.registered, haction ▸ hpassed, ?_, ?_, ?_, ?_⟩
    · rw [← hstatus, ← haction]
      exact hentering.allowed
    · rw [← hstatus, ← haction]
      exact h.admitted
    · rw [← haction]
      exact hentering.status
    · show db₁.calls ++ _ = _
      rw [hwritten.calls, h.calls, haction]

/-! ### After the adapter call -/

/-- An action that has come to its end after its adapter was called. -/
structure Settled (db₀ : Registry) (applicationId : String) (execution : ExecutionRecord)
    (finish : Finish) (status : ApplicationStatus) (calls : List AdapterCall) (db : Registry) :
    Prop where
  finished : Finished db₀ execution finish db
  applications : db.applications = db₀.applications
  others : ∀ other, other ≠ applicationId →
    db.instances.lookup other = db₀.instances.lookup other
  row : ∃ row, db.instances.lookup applicationId = some row ∧ row.status = status
  calls : db.calls = calls

/-- The result of a failed adapter call. -/
def failedFinish (result : AdapterResult) : Finish where
  succeeded := false
  exitCode := result.exitCode
  errorCode := result.errorCode
  errorMessage := some result.message

theorem afterCall_spec (service : LifecycleService) {db₀ db : Registry} {run : ActionRun}
    (h : Started db₀ run db) (result : AdapterResult) :
    Triple (fun db' => db' = db) (service.afterCall run result)
      (fun response db' =>
        (response = none ∧ result.succeeded = true ∧ db' = db) ∨
        (response.isSome = true ∧ result.succeeded = false ∧
          Settled db₀ run.applicationId run.execution (failedFinish result) .failed db.calls db'))
      (fun _ _ => False) := by
  unfold LifecycleService.afterCall
  split
  · rename_i hsucceeded
    exact Triple.pure fun db' hdb' => Or.inl ⟨rfl, hsucceeded, hdb'⟩
  · rename_i hfailed
    refine Triple.bind (transition_spec h.attached.committable _ _)
      fun state => Triple.forEach fun db₁ hm => ?_
    have hwritten : WrittenInstance run.applicationId db db₁ := h.key ▸ hm.written
    refine Triple.bind (finishExecution_spec service (hwritten.executions.trans h.executions)
      (hwritten.auditEvents.trans h.auditEvents) h.fresh (failedFinish result)) fun _ => ?_
    refine Triple.pure fun db' hf => Or.inr ⟨rfl, Bool.eq_false_iff.mpr hfailed, ?_⟩
    obtain ⟨hfinished, happlications, hinstances, hcalls⟩ := hf
    refine ⟨hfinished, ?_, fun other hother => ?_, ⟨state.now, ?_, hm.status⟩, ?_⟩
    · rw [happlications, hwritten.applications, h.applications]
    · rw [hinstances, hwritten.others other hother, h.others other hother]
    · rw [hinstances, ← h.key, ← hm.applicationId]
      exact hm.attached.stored
    · rw [hcalls, hwritten.calls]

/-- How the confirmation finishes an execution. -/
def confirmedFinish (action : Action) (result : AdapterResult) (runtimeState : RuntimeState) :
    Finish :=
  let succeeded := action.expected.contains runtimeState.status
  { succeeded
    exitCode := result.exitCode
    errorCode := if succeeded then none else some "STATE_CONFIRMATION_FAILED"
    errorMessage := if succeeded then none else some (confirmationMessage result runtimeState) }

theorem afterStatus_spec (service : LifecycleService) {db₀ db : Registry} {run : ActionRun}
    (h : Started db₀ run db) (result : AdapterResult) (runtimeState : RuntimeState) :
    Triple (fun db' => db' = db) (service.afterStatus run result runtimeState)
      (fun response db' => response.status = runtimeState.status ∧
        Settled db₀ run.applicationId run.execution
          (confirmedFinish run.action result runtimeState) runtimeState.status db.calls db')
      (fun _ _ => False) := by
  refine Triple.bind (applyRuntimeState_spec h.attached.committable runtimeState) fun response =>
    Triple.forEach fun db₁ ho => ?_
  obtain ⟨row, hrow, hresponse, hstatus⟩ := ho.row
  have hwritten : WrittenInstance run.applicationId db db₁ := h.key ▸ ho.written
  have hobserved : response.status = runtimeState.status := hresponse ▸ hstatus
  rw [hobserved]
  refine Triple.bind (finishExecution_spec service (hwritten.executions.trans h.executions)
    (hwritten.auditEvents.trans h.auditEvents) h.fresh
    (confirmedFinish run.action result runtimeState)) fun _ => ?_
  refine Triple.pure fun db' hf => ⟨rfl, ?_⟩
  obtain ⟨hfinished, happlications, hinstances, hcalls⟩ := hf
  refine ⟨hfinished, ?_, fun other hother => ?_, ⟨row, ?_, hstatus⟩, ?_⟩
  · rw [happlications, hwritten.applications, h.applications]
  · rw [hinstances, hwritten.others other hother, h.others other hother]
  · rw [hinstances, ← h.key]
    exact hrow
  · rw [hcalls, hwritten.calls]

/-! ### The whole action -/

/-- **Every exit of an action** that begins in `db₀`, with what it leaves. -/
inductive Course (service : LifecycleService) (surroundings : Surroundings) (db₀ : Registry)
    (applicationId : String) (action : Action) :
    EStateM.Result Raised Registry LifecycleActionResponse → Prop where
  /-- Before the execution was created. -/
  | refused {raised : Raised} {db : Registry} (h : SameRecords db₀ db)
      (hcode : NotTransition raised) :
      Course service surroundings db₀ applicationId action (.error raised db)
  /-- The preflight raised something other than a `PortDiscoveryError`. -/
  | unchecked {exception : String} {run : ActionRun} {db : Registry}
      (hstarts : action.starts = true) (hraised : surroundings.preflight = .raised exception)
      (hbegun : Begun service db₀ applicationId action run db) :
      Course service surroundings db₀ applicationId action (.error (.external exception) db)
  | rejected {error : LifecycleError} {run : ActionRun} {db db' : Registry}
      (hpreflight : action.starts = true → ∀ exception, surroundings.preflight ≠ .raised exception)
      (hreason : passesPreflight action surroundings.preflight = false ∧
          error.code ≠ "STATE_TRANSITION_INVALID" ∨
        requireTransition (db₀.persistedStatus applicationId) action.firstStatus = false)
      (hbegun : Begun service db₀ applicationId action run db)
      (h : Rejected db₀ run.execution db error db') :
      Course service surroundings db₀ applicationId action (.error (.lifecycle error) db')
  /-- The adapter call raised. -/
  | uncalled {exception : String} {run : ActionRun} {db : Registry}
      (hraised : surroundings.call = .raised exception)
      (h : Entered service surroundings.preflight db₀ applicationId action run db) :
      Course service surroundings db₀ applicationId action (.error (.external exception) db)
  | failed {result : AdapterResult} {run : ActionRun} {response : LifecycleActionResponse}
      {db db' : Registry} (hcall : surroundings.call = .returned result)
      (hfailed : result.succeeded = false)
      (h : Entered service surroundings.preflight db₀ applicationId action run db)
      (hsettled : Settled db₀ applicationId run.execution (failedFinish result) .failed db.calls
        db') :
      Course service surroundings db₀ applicationId action (.ok response db')
  /-- The adapter's `status()` raised. -/
  | unobserved {result : AdapterResult} {exception : String} {run : ActionRun} {db : Registry}
      (hcall : surroundings.call = .returned result) (hsucceeded : result.succeeded = true)
      (hraised : surroundings.observation = .raised exception)
      (h : Entered service surroundings.preflight db₀ applicationId action run db) :
      Course service surroundings db₀ applicationId action (.error (.external exception) db)
  | confirmed {result : AdapterResult} {runtimeState : RuntimeState} {run : ActionRun}
      {response : LifecycleActionResponse} {db db' : Registry}
      (hcall : surroundings.call = .returned result) (hsucceeded : result.succeeded = true)
      (hobservation : surroundings.observation = .returned runtimeState)
      (h : Entered service surroundings.preflight db₀ applicationId action run db)
      (hsettled : Settled db₀ applicationId run.execution
        (confirmedFinish action result runtimeState) runtimeState.status db.calls db') :
      Course service surroundings db₀ applicationId action (.ok response db')

theorem Awaited.get_spec {α : Type} (awaited : Awaited α) (db : Registry) :
    Triple (fun db' => db' = db) awaited.get
      (fun value db' => awaited = .returned value ∧ db' = db)
      (fun raised db' => ∃ exception, awaited = .raised exception ∧
        raised = .external exception ∧ db' = db) := by
  cases awaited with
  | returned value => exact Triple.pure fun _ h => ⟨rfl, h⟩
  | raised exception => exact Triple.throw fun _ h => ⟨exception, rfl, rfl, h⟩

theorem lockedAction_course (service : LifecycleService) (surroundings : Surroundings)
    (db₀ : Registry) (applicationId : String) (action : Action) :
    Course service surroundings db₀ applicationId action
      (service.lockedAction surroundings applicationId action db₀) := by
  let Exits := Course service surroundings db₀ applicationId action
  have hcourse : Triple (fun db => db = db₀)
      (service.lockedAction surroundings applicationId action)
      (fun response db => Exits (.ok response db)) (fun raised db => Exits (.error raised db)) := by
    refine Triple.bind ((beginAction_spec service applicationId action db₀).conseq (fun _ h => h)
      (fun _ _ h => h) (fun _ _ h => Course.refused h.1 h.2)) fun run => Triple.forEach fun db hbegun => ?_
    obtain ⟨happ, haction⟩ := hbegun.name
    have hturned : ∀ raised db', Turned db₀ run surroundings.preflight db raised db' →
        Exits (.error raised db') := by
      intro raised db' h
      cases h with
      | external hstarts hpreflight => exact Course.unchecked (haction ▸ hstarts) hpreflight hbegun
      | rejected hpreflight hreason h =>
          rw [haction, hbegun.status, happ] at hreason
          exact Course.rejected (haction ▸ hpreflight) hreason hbegun h
    refine Triple.bind ((afterPreflight_spec service surroundings.preflight hbegun).conseq
      (fun _ h => h) (fun _ _ h => h) hturned) fun run' => Triple.forEach fun db₁ hentered => ?_
    obtain ⟨happ', haction'⟩ := hentered.name
    refine Triple.bind ((Awaited.get_spec surroundings.call db₁).conseq (fun _ h => h)
      (fun _ _ h => h) (fun raised db' h => ?_)) fun result => Triple.forEach fun db' hcall => ?_
    · obtain ⟨exception, hraised, rfl, rfl⟩ := h
      exact Course.uncalled hraised hentered
    obtain ⟨hcall, rfl⟩ := hcall
    refine Triple.bind ((afterCall_spec service hentered.started result).conseq (fun _ h => h)
      (fun _ _ h => h) (fun _ _ h => h.elim)) fun response => Triple.forEach fun db₂ hr => ?_
    rcases hr with ⟨rfl, hsucceeded, rfl⟩ | ⟨hresponse, hfailed, hsettled⟩
    · refine Triple.bind ((Awaited.get_spec surroundings.observation db₂).conseq (fun _ h => h)
        (fun _ _ h => h) (fun raised db' h => ?_))
        fun runtimeState => Triple.forEach fun db₃ hobservation => ?_
      · obtain ⟨exception, hraised, rfl, rfl⟩ := h
        exact Course.unobserved hcall hsucceeded hraised hentered
      · obtain ⟨hobservation, rfl⟩ := hobservation
        refine (afterStatus_spec service hentered.started result runtimeState).conseq
          (fun _ h => h) (fun response db' h => ?_) (fun _ _ h => h.elim)
        exact Course.confirmed hcall hsucceeded hobservation hentered (happ' ▸ haction' ▸ h.2)
    · obtain ⟨response, rfl⟩ := Option.isSome_iff_exists.mp hresponse
      refine Triple.pure fun db' hdb' => ?_
      rw [hdb']
      exact Course.failed hcall hfailed hentered (happ' ▸ hsettled)
  exact hcourse.exits

end MachineDeck.Lifecycle

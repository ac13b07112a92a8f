import MachineDeck.LifecycleInterleaving
import MachineDeck.UnitReconcile

/-!
# What the requests do to the history

The history is the executions and the audit events.

* `OnHistory`, `Noted` — a property of the history alone, kept when a requester's event about no
  execution is added;
* `HistoryRules` — what a property has to allow: an execution is begun, is under way, and is
  finished with its event;
* `System.step_history` — then every event of the interleaved requests keeps it;
* `System.status_history` — a request for the status needs no rules.
-/

namespace MachineDeck.Lifecycle

open ProgramTriple GuardedRuns

/-! ### Properties of the history -/

/-- A property of the executions and the audit events. -/
def OnHistory (P : Registry → Prop) : Prop :=
  ∀ db db' : Registry, db'.executions = db.executions → db'.auditEvents = db.auditEvents →
    P db → P db'

/-- An audit event that a requester has caused. -/
def AuditEventRecord.By (event : AuditEventRecord) (requester : Requester) : Prop :=
  event.actor = requester.actor ∧ ∀ item ∈ requester.details, item ∈ event.details

/-- The requester's events about no execution keep the property. -/
def Noted (P : Registry → Prop) (requester : Requester) : Prop :=
  ∀ (db : Registry) (event : AuditEventRecord), event.executionId = none → event.By requester →
    P db → P { db with auditEvents := db.auditEvents ++ [event] }

/-- A property `P` of the history, with `U` for the time when an execution is under way. -/
structure HistoryRules (service : LifecycleService) (P : Registry → Prop)
    (U : ExecutionRecord → Registry → Prop) : Prop where
  quiet : OnHistory P
  noted : Noted P service.requester
  underway : ∀ execution, OnHistory (U execution)
  drop : ∀ {execution db}, U execution db → P db
  opens : ∀ applicationId action,
    Triple P (service.newExecution applicationId action) U fun _ _ => False
  closes : ∀ execution finish,
    Triple (U execution) (service.finishExecution execution finish) (fun _ => P) fun _ _ => False

variable {P : Registry → Prop} {U : ExecutionRecord → Registry → Prop}
  {service : LifecycleService} {applicationId : String}

/-! ### Programs that do not touch executions -/

section Quiet

theorem utcNow_quiet (hP : OnHistory P) : Keeps P utcNow :=
  Keeps.modifyGet fun db h => hP db _ rfl rfl h

theorem uuid4_quiet (hP : OnHistory P) : Keeps P uuid4 :=
  Keeps.modifyGet fun db h => hP db _ rfl rfl h

theorem require_quiet (condition : Bool) (raised : Raised) :
    Keeps P (require condition raised) := by
  cases condition with
  | true => exact Keeps.pure ()
  | false => exact Keeps.throw raised

theorem insertInstance_quiet (hP : OnHistory P) (state : InstanceObject) :
    Keeps P (insertInstance state) :=
  Keeps.get_bind fun _ _ => Keeps.bind (require_quiet _ _) fun _ =>
    Keeps.bind (Keeps.modify fun db h => hP db _ rfl rfl h) fun _ => Keeps.pure _

theorem updateInstance_quiet (hP : OnHistory P) (state : InstanceObject)
    (loaded : ApplicationInstanceRecord) : Keeps P (updateInstance state loaded) := by
  refine Keeps.bind (utcNow_quiet hP) fun updatedAt => Keeps.get_bind fun db _ => ?_
  cases db.instances.lookup state.applicationId with
  | none => exact Keeps.throw _
  | some stored =>
    exact Keeps.bind (require_quiet _ _) fun _ =>
      Keeps.bind (Keeps.modify fun db h => hP db _ rfl rfl h) fun _ => Keeps.pure _

theorem commitInstance_quiet (hP : OnHistory P) (state : InstanceObject) :
    Keeps P (commitInstance state) := by
  unfold commitInstance
  split
  · exact insertInstance_quiet hP state
  · split
    · exact Keeps.pure _
    · exact updateInstance_quiet hP state _

theorem refreshInstance_quiet (state : InstanceObject) :
    Keeps P (refreshInstance state) := by
  refine Keeps.get_bind fun db _ => ?_
  cases db.instances.lookup state.applicationId with
  | none => exact Keeps.throw _
  | some stored => exact Keeps.bind (require_quiet _ _) fun _ => Keeps.pure _

theorem stateRecord_quiet (hP : OnHistory P) (applicationId : String) :
    Keeps P (stateRecord applicationId) := by
  refine Keeps.get_bind fun db _ => ?_
  cases db.instances.lookup applicationId with
  | some row => exact Keeps.pure _
  | none =>
    exact Keeps.bind (uuid4_quiet hP) fun _ => Keeps.bind (utcNow_quiet hP) fun _ => Keeps.pure _

theorem stampStatus_quiet (hP : OnHistory P) (row : ApplicationInstanceRecord) :
    Keeps P (stampStatus row) := by
  unfold stampStatus startedAtOrNow
  split
  · refine Keeps.bind ?_ fun _ => Keeps.pure _
    split
    · exact Keeps.pure _
    · exact utcNow_quiet hP
  · split
    · exact Keeps.bind (utcNow_quiet hP) fun _ => Keeps.pure _
    · exact Keeps.pure _

theorem transition_quiet (hP : OnHistory P) (state : InstanceObject) (target : ApplicationStatus)
    (errorMessage : Option String) :
    Keeps P (transition state target errorMessage) :=
  Keeps.bind (stampStatus_quiet hP _) fun _ => commitInstance_quiet hP _

theorem applyRuntimeState_quiet (hP : OnHistory P) (state : InstanceObject)
    (runtimeState : RuntimeState) : Keeps P (applyRuntimeState state runtimeState) :=
  Keeps.bind (stampStatus_quiet hP _) fun _ => Keeps.bind (commitInstance_quiet hP _) fun _ =>
    Keeps.bind (refreshInstance_quiet _) fun _ => Keeps.pure _

theorem application_quiet (service : LifecycleService) (applicationId : String) :
    Keeps P (service.application applicationId) := by
  refine Keeps.get_bind fun db _ => ?_
  cases db.applications.lookup applicationId with
  | none => exact Keeps.throw _
  | some record =>
    dsimp only
    cases service.yaml.load record.configYaml with
    | none => exact Keeps.throw _
    | some manifest => exact Keeps.bind (require_quiet _ _) fun _ => Keeps.pure _

theorem loadStatus_quiet (hP : OnHistory P) (service : LifecycleService) (applicationId : String) :
    Keeps P (service.loadStatus applicationId) := by
  refine Keeps.bind (application_quiet service applicationId) fun found => ?_
  refine Keeps.bind (stateRecord_quiet hP applicationId) fun state => ?_
  dsimp only
  split
  · exact Keeps.pure _
  · exact Keeps.bind (commitInstance_quiet hP _) fun _ => Keeps.pure _

theorem requester_keys (requester : Requester) :
    ∀ item ∈ requester.details, item.1 ≠ "execution_id" := by
  unfold Requester.details
  split
  · split <;> simp
  · simp

/-- The audit event of a configuration request is about no execution. -/
theorem addAuditEvent_noted (hP : OnHistory P) {requester : Requester} (hN : Noted P requester)
    (action targetId result : String) {details : List (String × DetailValue)}
    (hdetails : ∀ item ∈ details, item.1 ≠ "execution_id") :
    Keeps P (addAuditEvent requester action targetId result details) := by
  have hnone : (details ++ requester.details).lookup "execution_id" = none := by
    refine List.lookup_eq_none_iff.mpr fun item hitem => ?_
    rcases List.mem_append.mp hitem with hmem | hmem
    · simpa using Ne.symm (hdetails item hmem)
    · simpa using Ne.symm (requester_keys requester item hmem)
  refine Keeps.bind (uuid4_quiet hP) fun id => Keeps.bind (utcNow_quiet hP) fun createdAt => ?_
  refine Keeps.modify fun db h => hN db _ ?_ ⟨rfl, fun item => List.mem_append_right _⟩ h
  rw [AuditEventRecord.executionId, hnone]

theorem response_quiet (yaml : ManifestYaml) (applicationId : String)
    (record : ApplicationRecord) :
    Keeps P (response yaml applicationId record) := by
  unfold response
  split
  · exact Keeps.throw _
  · exact Keeps.get_bind fun _ _ => Keeps.pure _

theorem rejectActiveApplication_quiet (applicationId : String) :
    Keeps P (rejectActiveApplication applicationId) :=
  Keeps.get_bind fun _ _ => require_quiet _ _

theorem createApplication_noted (hP : OnHistory P) (yaml : ManifestYaml) {requester : Requester}
    (hN : Noted P requester) (manifest : ApplicationManifest) :
    Keeps P (createApplication yaml requester manifest) := by
  refine Keeps.get_bind fun db _ => Keeps.bind (require_quiet _ _) fun _ => ?_
  refine Keeps.bind (utcNow_quiet hP) fun _ => ?_
  refine Keeps.bind (Keeps.modify fun db h => hP db _ rfl rfl h) fun _ => ?_
  refine Keeps.bind (uuid4_quiet hP) fun _ => Keeps.bind (utcNow_quiet hP) fun _ => ?_
  refine Keeps.bind (Keeps.modify fun db h => hP db _ rfl rfl h) fun _ => ?_
  refine Keeps.bind (addAuditEvent_noted hP hN _ _ _ ?_) fun _ => response_quiet _ _ _
  simp [auditDetails]

theorem writeRecord_quiet (hP : OnHistory P) (applicationId : String)
    (record updated : ApplicationRecord) : Keeps P (writeRecord applicationId record updated) := by
  unfold writeRecord
  split
  · exact Keeps.pure _
  · exact Keeps.bind (utcNow_quiet hP) fun _ =>
      Keeps.bind (Keeps.modify fun db h => hP db _ rfl rfl h) fun _ => Keeps.pure _

theorem updateApplication_noted (hP : OnHistory P) (yaml : ManifestYaml) {requester : Requester}
    (hN : Noted P requester) (applicationId : String) (manifest : ApplicationManifest) :
    Keeps P (updateApplication yaml requester applicationId manifest) := by
  refine Keeps.bind (require_quiet _ _) fun _ => Keeps.get_bind fun db _ => ?_
  cases db.applications.lookup applicationId with
  | none => exact Keeps.throw _
  | some record =>
    refine Keeps.bind (rejectActiveApplication_quiet _) fun _ => ?_
    refine Keeps.bind (writeRecord_quiet hP _ _ _) fun _ => ?_
    refine Keeps.bind (addAuditEvent_noted hP hN _ _ _ ?_) fun _ => response_quiet _ _ _
    simp [auditDetails]

theorem deleteApplication_noted (hP : OnHistory P) {requester : Requester}
    (hN : Noted P requester) (applicationId : String) :
    Keeps P (deleteApplication requester applicationId) := by
  refine Keeps.get_bind fun db _ => ?_
  cases db.applications.lookup applicationId with
  | none => exact Keeps.throw _
  | some record =>
    refine Keeps.bind (rejectActiveApplication_quiet _) fun _ => ?_
    refine Keeps.bind (Keeps.modify fun db h => hP db _ rfl rfl h) fun _ => ?_
    exact addAuditEvent_noted hP hN _ _ _ (by simp)

theorem checkApplicationUnit_quiet (hP : OnHistory P) (checker : UnitChecker)
    (applicationId : String) : Keeps P (checkApplicationUnit checker applicationId) := by
  refine Keeps.get_bind fun db _ => ?_
  cases db.applications.lookup applicationId with
  | none => exact Keeps.throw _
  | some record =>
    dsimp only
    cases checker.yaml.load record.configYaml with
    | none => exact Keeps.throw _
    | some manifest =>
      dsimp only
      cases checker.manager.consistency manifest checker.host with
      | error raised _ => exact Keeps.throw _
      | ok result _ =>
        refine Keeps.bind (Keeps.get_bind fun db _ => ?_) fun _ => Keeps.pure _
        cases db.instances.lookup applicationId with
        | none => exact Keeps.pure ()
        | some row => exact Keeps.bind (commitInstance_quiet hP _) fun _ => Keeps.pure ()

theorem reconcileRecords_quiet (hP : OnHistory P) (checkers : String → UnitChecker)
    (records : List (String × ApplicationRecord)) :
    Keeps P (reconcileRecords checkers records) := by
  induction records with
  | nil => exact Keeps.pure []
  | cons first rest ih =>
    obtain ⟨applicationId, record⟩ := first
    unfold reconcileRecords
    cases (checkers applicationId).yaml.load record.configYaml with
    | none => exact Keeps.throw _
    | some manifest =>
      dsimp only
      cases manifest.runtime with
      | compose _ => exact ih
      | process _ =>
        exact Keeps.bind (checkApplicationUnit_quiet hP _ _) fun _ =>
          Keeps.bind ih fun _ => Keeps.pure _

end Quiet

/-! ### The pieces of an action -/

section Pieces

variable {α : Type} {execution : ExecutionRecord} {run : ActionRun}

/-- A program that does not touch the history leaves an execution under way. -/
theorem HistoryRules.stays (rules : HistoryRules service P U) {m : Program α}
    (h : Keeps (U execution) m) :
    Triple (U execution) m (fun _ => U execution) (fun _ => P) :=
  h.conseq (fun _ hdb => hdb) (fun _ _ hdb => hdb) fun _ _ hdb => rules.drop hdb

theorem HistoryRules.newExecution (rules : HistoryRules service P U) (applicationId : String)
    (action : Action) :
    Triple P (service.newExecution applicationId action) U (fun _ => P) :=
  (rules.opens applicationId action).conseq (fun _ h => h) (fun _ _ h => h) fun _ _ h => h.elim

theorem HistoryRules.finishExecution (rules : HistoryRules service P U)
    (execution : ExecutionRecord) (finish : Finish) :
    Triple (U execution) (service.finishExecution execution finish) (fun _ => P) (fun _ => P) :=
  (rules.closes execution finish).conseq (fun _ h => h) (fun _ _ h => h) fun _ _ h => h.elim

theorem reject_history (rules : HistoryRules service P U) (execution : ExecutionRecord)
    (finish : Finish) (raised : Raised) {Q : α → Registry → Prop} :
    Triple (U execution) (service.reject execution finish raised) Q (fun _ => P) :=
  Triple.bind (rules.finishExecution execution finish) fun _ => Triple.throw fun _ h => h

theorem beginAction_history (rules : HistoryRules service P U) (applicationId : String)
    (action : Action) :
    Triple P (service.beginAction applicationId action) (fun run => U run.execution)
      (fun _ => P) := by
  refine Triple.bind (application_quiet service applicationId) fun found => ?_
  refine Triple.bind (require_quiet _ _) fun _ => ?_
  refine Triple.bind (stateRecord_quiet rules.quiet applicationId) fun state => ?_
  refine Triple.bind (require_quiet _ _) fun _ => ?_
  refine Triple.bind (require_quiet _ _) fun _ => ?_
  refine Triple.bind (rules.newExecution applicationId action) fun execution => ?_
  exact Triple.bind (rules.stays (commitInstance_quiet (rules.underway execution) state)) fun _ =>
    Triple.pure fun _ h => h

theorem checkPorts_history (rules : HistoryRules service P U) (run : ActionRun)
    (preflight : Preflight) :
    Triple (U run.execution) (service.checkPorts run preflight) (fun _ => U run.execution)
      (fun _ => P) := by
  cases preflight with
  | raised exception => exact Triple.throw fun _ h => rules.drop h
  | unavailable message => exact reject_history rules run.execution _ _
  | listed conflicts =>
    simp only [LifecycleService.checkPorts]
    split
    · exact Triple.pure fun _ h => h
    · exact reject_history rules run.execution _ _

theorem requireTransition_history (rules : HistoryRules service P U) (run : ActionRun)
    (current target : ApplicationStatus) :
    Triple (U run.execution) (service.requireTransition run current target)
      (fun _ => U run.execution) (fun _ => P) := by
  unfold LifecycleService.requireTransition
  split
  · exact Triple.pure fun _ h => h
  · exact reject_history rules run.execution _ _

theorem transition_history (rules : HistoryRules service P U) (state : InstanceObject)
    (target : ApplicationStatus) (errorMessage : Option String) :
    Triple (U execution) (transition state target errorMessage) (fun _ => U execution)
      (fun _ => P) :=
  rules.stays (transition_quiet (rules.underway execution) state target errorMessage)

theorem enterTransitions_history (rules : HistoryRules service P U) (run : ActionRun) :
    Triple (U run.execution) (service.enterTransitions run) (fun _ => U run.execution)
      (fun _ => P) := by
  unfold LifecycleService.enterTransitions
  cases run.action with
  | start =>
    refine Triple.bind (requireTransition_history rules run _ _) fun _ => ?_
    refine Triple.bind (transition_history rules _ _ _) fun state => ?_
    exact Triple.bind (requireTransition_history rules run _ _) fun _ =>
      transition_history rules _ _ _
  | stop =>
    exact Triple.bind (requireTransition_history rules run _ _) fun _ =>
      transition_history rules _ _ _
  | restart =>
    exact Triple.bind (requireTransition_history rules run _ _) fun _ =>
      transition_history rules _ _ _

theorem afterPreflight_history (rules : HistoryRules service P U) (run : ActionRun)
    (preflight : Preflight) :
    Triple (U run.execution) (service.afterPreflight run preflight)
      (fun run' db => run'.execution = run.execution ∧ U run.execution db) (fun _ => P) := by
  have hports : Triple (U run.execution) (service.portPreflight run preflight)
      (fun _ => U run.execution) (fun _ => P) := by
    unfold LifecycleService.portPreflight
    split
    · exact checkPorts_history rules run preflight
    · exact Triple.pure fun _ h => h
  refine Triple.bind hports fun _ => ?_
  refine Triple.bind (enterTransitions_history rules run) fun state => ?_
  refine Triple.bind (rules.stays (Keeps.modify fun db h => ?_)) fun _ =>
    Triple.pure fun _ h => ⟨rfl, h⟩
  exact rules.underway run.execution db _ rfl rfl h

theorem enterAction_history (rules : HistoryRules service P U) (applicationId : String)
    (action : Action) :
    Triple P (service.enterAction applicationId action)
      (fun entered => U entered.1.execution) (fun _ => P) := by
  refine Triple.bind (beginAction_history rules applicationId action) fun run => ?_
  split
  · exact Triple.pure fun _ h => h
  · refine Triple.bind (afterPreflight_history rules run _) fun run' => Triple.pure fun db h => ?_
    rw [h.1]
    exact h.2

theorem afterCall_history (rules : HistoryRules service P U) (run : ActionRun)
    (result : AdapterResult) :
    Triple (U run.execution) (service.afterCall run result)
      (fun answer db => P db ∧ (answer = none → U run.execution db)) (fun _ => P) := by
  unfold LifecycleService.afterCall
  split
  · exact Triple.pure fun _ h => ⟨rules.drop h, fun _ => h⟩
  · refine Triple.bind (transition_history rules _ _ _) fun _ => ?_
    refine Triple.bind (rules.finishExecution run.execution _) fun _ => ?_
    exact Triple.pure fun _ h => ⟨h, fun hnone => nomatch hnone⟩

theorem afterStatus_history (rules : HistoryRules service P U) (run : ActionRun)
    (result : AdapterResult) (runtimeState : RuntimeState) :
    Triple (U run.execution) (service.afterStatus run result runtimeState) (fun _ => P)
      (fun _ => P) := by
  refine Triple.bind
    (rules.stays (applyRuntimeState_quiet (rules.underway run.execution) _ _)) fun response => ?_
  exact Triple.bind (rules.finishExecution run.execution _) fun _ => Triple.pure fun _ h => h

end Pieces

/-! ### Events of the system -/

/-- The action that a request has begun. -/
def Phase.run? : Phase → Option ActionRun
  | .checking run => some run
  | .calling run => some run
  | .confirming run _ => some run
  | _ => none

/-- `U` holds of the execution under way, `P` without one. -/
def Phase.Holds (P : Registry → Prop) (U : ExecutionRecord → Registry → Prop) (phase : Phase)
    (db : Registry) : Prop :=
  match phase.run? with
  | none => P db
  | some run => U run.execution db

/-- The request that goes on with an event. -/
def System.subject (sys : System) : Event → Option ℕ
  | .status i => some i
  | .arrive i _ => some i
  | .wake => sys.queue.head?
  | .report i _ => some i
  | .preflight i _ => some i
  | .called i _ => some i
  | .confirm i _ => some i

section Steps

variable {sys sys' : System} {i : ℕ}

/-- From these phases the request has gone to another one, which holds. -/
def Advances (P : Registry → Prop) (U : ExecutionRecord → Registry → Prop) (i : ℕ) (sys' : System)
    (phases : ℕ → Phase) : Prop :=
  ∃ phase, sys'.phases = Function.update phases i phase ∧ phase.Holds P U sys'.db

/-- Request `i` runs up to its next await. -/
theorem enter_history (rules : HistoryRules service P U) (h : P sys.db) (i : ℕ) (locked : Locked) :
    Advances P U i (sys.enter service applicationId i locked) sys.phases := by
  cases locked with
  | status manifest state => exact ⟨.querying manifest state, rfl, h⟩
  | update manifest =>
    exact ⟨.done, rfl,
      (updateApplication_noted rules.quiet _ rules.noted applicationId manifest).finalState h⟩
  | delete =>
    exact ⟨.done, rfl, (deleteApplication_noted rules.quiet rules.noted applicationId).finalState h⟩
  | action action =>
    have hends := enterAction_history rules applicationId action sys.db h
    simp only [System.enter]
    cases hrun : service.enterAction applicationId action sys.db with
    | error raised db =>
      rw [hrun] at hends
      exact ⟨.done, rfl, hends⟩
    | ok entered db =>
      rw [hrun] at hends
      obtain ⟨run, preflighted⟩ := entered
      cases preflighted with
      | true => exact ⟨.checking run, rfl, hends⟩
      | false => exact ⟨.calling run, rfl, hends⟩

theorem acquire_history (rules : HistoryRules service P U) (h : P sys.db) (i : ℕ)
    (locked : Locked) : Advances P U i (sys.acquire service applicationId i locked) sys.phases := by
  unfold System.acquire
  split
  · exact enter_history rules h i locked
  · exact ⟨.waiting locked, rfl, h⟩

theorem report_history (rules : HistoryRules service P U) (h : P sys.db)
    (manifest : ApplicationManifest) (state : InstanceObject) (observation : Awaited RuntimeState) :
    Advances P U i (sys.report service applicationId i manifest state observation) sys.phases := by
  cases observation with
  | raised exception => exact ⟨.done, rfl, h⟩
  | returned runtimeState =>
    have hends := applyRuntimeState_quiet rules.quiet state runtimeState sys.db h
    simp only [System.report]
    cases hrun : applyRuntimeState state runtimeState sys.db with
    | ok response db =>
      rw [hrun] at hends
      exact ⟨.done, rfl, hends⟩
    | error raised db =>
      rw [hrun] at hends
      exact ⟨.done, rfl, hends⟩

/-- **What an event does to the history.**  The request that goes on takes what holds in its phase
to what holds in its next one. -/
theorem System.step_history {event : Event}
    (hstep : SystemStep service applicationId sys event sys')
    (hsubject : sys.subject event = some i) (rules : HistoryRules service P U) (h : (sys.phases i).Holds P U sys.db) :
    Advances P U i sys' sys.phases := by
  cases event with
  | status j =>
    cases hsubject
    simp only [SystemStep, System.step] at hstep
    split at hstep
    · rename_i hphase
      rw [hphase] at h
      have hends := loadStatus_quiet rules.quiet service applicationId sys.db h
      split at hstep <;> rename_i hrun <;> rw [hrun] at hends <;> cases hstep
      · exact ⟨.done, rfl, hends⟩
      · exact @acquire_history P U service applicationId { sys with db := _ } rules hends i _
      · exact ⟨.done, rfl, hends⟩
    · cases hstep
  | arrive j locked =>
    cases hsubject
    simp only [SystemStep, System.step] at hstep
    split at hstep
    · cases hstep
    · rename_i hphase _
      rw [hphase] at h
      cases hstep
      exact acquire_history rules h i _
    · cases hstep
  | wake =>
    simp only [SystemStep, System.step] at hstep
    split at hstep
    · rename_i j rest _ hqueue
      rw [System.subject, hqueue] at hsubject
      cases hsubject
      split at hstep
      · rename_i hphase
        rw [hphase] at h
        cases hstep
        exact @enter_history P U service applicationId { sys with queue := rest } rules h i _
      · cases hstep
    · cases hstep
  | report j observation =>
    cases hsubject
    simp only [SystemStep, System.step] at hstep
    split at hstep
    · rename_i hphase
      rw [hphase] at h
      cases hstep
      exact report_history rules h _ _ observation
    · cases hstep
  | preflight j preflight =>
    cases hsubject
    simp only [SystemStep, System.step] at hstep
    split at hstep
    · rename_i run hphase
      rw [hphase] at h
      have hends := afterPreflight_history rules run preflight sys.db h
      split at hstep <;> rename_i hrun <;> rw [hrun] at hends <;> cases hstep
      · rename_i run' _
        obtain ⟨hsame, hends⟩ := hends
        exact ⟨.calling run', rfl, (congrArg (U · _) hsame).mpr hends⟩
      · exact ⟨.done, rfl, hends⟩
    · cases hstep
  | called j call =>
    cases hsubject
    cases call with
    | raised exception =>
      simp only [SystemStep, System.step] at hstep
      split at hstep
      · rename_i run hphase
        rw [hphase] at h
        cases hstep
        exact ⟨.done, rfl, rules.drop h⟩
      · cases hstep
    | returned result =>
      simp only [SystemStep, System.step] at hstep
      split at hstep
      · rename_i run hphase
        rw [hphase] at h
        have hends := afterCall_history rules run result sys.db h
        split at hstep <;> rename_i hrun <;> rw [hrun] at hends <;> cases hstep
        · exact ⟨.confirming run result, rfl, hends.2 rfl⟩
        · exact ⟨.done, rfl, hends.1⟩
        · exact ⟨.done, rfl, hends⟩
      · cases hstep
  | confirm j observation =>
    cases hsubject
    cases observation with
    | raised exception =>
      simp only [SystemStep, System.step] at hstep
      split at hstep
      · rename_i run result hphase
        rw [hphase] at h
        cases hstep
        exact ⟨.done, rfl, rules.drop h⟩
      · cases hstep
    | returned runtimeState =>
      simp only [SystemStep, System.step] at hstep
      split at hstep
      · rename_i run result hphase
        rw [hphase] at h
        have hends := afterStatus_history rules run result runtimeState sys.db h
        cases hstep
        refine ⟨.done, rfl, ?_⟩
        show P (finalState (service.afterStatus run result runtimeState sys.db))
        cases hrun : service.afterStatus run result runtimeState sys.db with
        | ok response db => rwa [hrun] at hends
        | error raised db => rwa [hrun] at hends
      · cases hstep

/-- A request for the status, or none. -/
def Phase.asks : Phase → Bool
  | .absent => true
  | .waiting (.status _ _) => true
  | .querying _ _ => true
  | .done => true
  | _ => false

theorem querying_acquire (sys : System) (i : ℕ) (manifest : ApplicationManifest)
    (state : InstanceObject) :
    ∃ phase : Phase, phase.asks = true ∧
      (sys.acquire service applicationId i (.status manifest state)).phases =
        Function.update sys.phases i phase ∧
      (sys.acquire service applicationId i (.status manifest state)).db = sys.db := by
  unfold System.acquire
  split
  · exact ⟨.querying manifest state, rfl, rfl, rfl⟩
  · exact ⟨.waiting (.status manifest state), rfl, rfl, rfl⟩

/-- A request for the status does not touch the history. -/
theorem System.status_history {event : Event}
    (hstep : SystemStep service applicationId sys event sys')
    (hsubject : sys.subject event = some i) (hasks : (sys.phases i).asks = true)
    (harrive : ∀ j locked, event ≠ .arrive j locked) :
    ∃ phase : Phase, phase.asks = true ∧ sys'.phases = Function.update sys.phases i phase ∧
      ∀ P, OnHistory P → P sys.db → P sys'.db := by
  cases event with
  | status j =>
    cases hsubject
    simp only [SystemStep, System.step] at hstep
    split at hstep
    · have hends (P : Registry → Prop) (hP : OnHistory P) (h : P sys.db) :=
        loadStatus_quiet hP service applicationId sys.db h
      split at hstep <;> rename_i hrun <;> rw [hrun] at hends <;> cases hstep
      · exact ⟨.done, rfl, rfl, hends⟩
      · obtain ⟨phase, hphase, hphases, hdb⟩ :=
          @querying_acquire service applicationId { sys with db := _ } i _ _
        exact ⟨phase, hphase, hphases, fun P hP h => hdb ▸ hends P hP h⟩
      · exact ⟨.done, rfl, rfl, hends⟩
    · cases hstep
  | arrive j locked => exact absurd rfl (harrive j locked)
  | wake =>
    simp only [SystemStep, System.step] at hstep
    split at hstep
    · rename_i j rest _ hqueue
      rw [System.subject, hqueue] at hsubject
      cases hsubject
      split at hstep
      · rename_i locked hphase
        rw [hphase] at hasks
        cases locked with
        | status manifest state =>
          cases hstep
          exact ⟨.querying manifest state, rfl, rfl, fun _ _ h => h⟩
        | action _ | update _ | delete => cases hasks
      · cases hstep
    · cases hstep
  | report j observation =>
    cases hsubject
    simp only [SystemStep, System.step] at hstep
    split at hstep
    · rename_i manifest state hphase
      cases hstep
      cases observation with
      | raised exception => exact ⟨.done, rfl, rfl, fun _ _ h => h⟩
      | returned runtimeState =>
        have hends (P : Registry → Prop) (hP : OnHistory P) (h : P sys.db) :=
          applyRuntimeState_quiet hP state runtimeState sys.db h
        simp only [System.report]
        cases hrun : applyRuntimeState state runtimeState sys.db with
        | ok response db =>
          rw [hrun] at hends
          exact ⟨.done, rfl, rfl, hends⟩
        | error raised db =>
          rw [hrun] at hends
          exact ⟨.done, rfl, rfl, hends⟩
    · cases hstep
  | preflight j preflight =>
    cases hsubject
    simp only [SystemStep, System.step] at hstep
    split at hstep
    · rename_i hphase
      rw [hphase] at hasks
      cases hasks
    · cases hstep
  | called j call =>
    cases hsubject
    cases call <;> simp only [SystemStep, System.step] at hstep <;> split at hstep
    · rename_i hphase
      rw [hphase] at hasks
      cases hasks
    · cases hstep
    · rename_i hphase
      rw [hphase] at hasks
      cases hasks
    · cases hstep
  | confirm j observation =>
    cases hsubject
    cases observation <;> simp only [SystemStep, System.step] at hstep <;> split at hstep
    · rename_i hphase
      rw [hphase] at hasks
      cases hasks
    · cases hstep
    · rename_i hphase
      rw [hphase] at hasks
      cases hasks
    · cases hstep

end Steps

end MachineDeck.Lifecycle

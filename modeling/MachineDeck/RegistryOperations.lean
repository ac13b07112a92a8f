import MachineDeck.LifecycleAction

/-!
# What the other requests do

Creating, changing and deleting an application and asking for its status, each with every exit it
has.  Together with `Course` these say what one request can do to the registry.

* `OnlyApplication` — the frame: rows of other applications are untouched;
* `CreateEffect`, `UpdateEffect`, `DeleteEffect`, `StatusEffect` — the exits, and
  `createApplication_effect` and its companions;
* `updateApplication_refused`, `deleteApplication_refused` — the guard at work.
-/

namespace MachineDeck.Lifecycle

open ProgramTriple

/-! ### Frames -/

/-- The rows of other applications are untouched. -/
structure OnlyApplication (applicationId : String) (db db' : Registry) : Prop where
  applications : ∀ other, other ≠ applicationId →
    db'.applications.lookup other = db.applications.lookup other
  instances : ∀ other, other ≠ applicationId →
    db'.instances.lookup other = db.instances.lookup other

theorem SameRecords.only {db db' : Registry} (h : SameRecords db db') (applicationId : String) :
    OnlyApplication applicationId db db' where
  applications _ _ := by rw [h.applications]
  instances _ _ := by rw [h.instances]

theorem WrittenInstance.only {applicationId : String} {db db' : Registry}
    (h : WrittenInstance applicationId db db') : OnlyApplication applicationId db db' where
  applications _ _ := by rw [h.applications]
  instances := h.others

/-- The registry rows and the instance rows of a database. -/
structure Rows (applications : Finmap fun _ : String => ApplicationRecord)
    (instances : Finmap fun _ : String => ApplicationInstanceRecord) (db : Registry) : Prop where
  applications : db.applications = applications
  instances : db.instances = instances

section
variable {applications : Finmap fun _ : String => ApplicationRecord}
  {instances : Finmap fun _ : String => ApplicationInstanceRecord}

theorem addAuditEvent_rows (requester : Requester) (action targetId result : String)
    (details : List (String × DetailValue)) :
    Triple (Rows applications instances) (addAuditEvent requester action targetId result details)
      (fun _ => Rows applications instances) (fun _ _ => False) :=
  fun _ h => ⟨h.applications, h.instances⟩

theorem response_rows (yaml : ManifestYaml) (applicationId : String) (record : ApplicationRecord) :
    Triple (Rows applications instances) (response yaml applicationId record)
      (fun _ => Rows applications instances) (fun _ => Rows applications instances) := by
  unfold response
  split
  · exact Triple.throw fun _ h => h
  · exact Triple.get_bind fun db h => Triple.pure fun _ hdb => hdb ▸ h

/-- The audit event and the answer that end a change of the configuration. -/
theorem answer_rows (yaml : ManifestYaml) (requester : Requester) (action applicationId : String)
    (details : List (String × DetailValue)) (record : ApplicationRecord) :
    Triple (Rows applications instances)
      (do
        addAuditEvent requester action applicationId "success" details
        response yaml applicationId record)
      (fun _ => Rows applications instances) (fun _ => Rows applications instances) :=
  Triple.bind ((addAuditEvent_rows requester action applicationId "success" details).conseq
    (fun _ h => h) (fun _ _ h => h) (fun _ _ h => h.elim))
    fun _ => response_rows yaml applicationId record

end

/-! ### Creating -/

/-- The exits of `create_application`, by the registry they leave. -/
inductive CreateEffect (manifest : ApplicationManifest) (db : Registry) : Registry → Prop where
  | taken : CreateEffect manifest db db
  | created {record : ApplicationRecord} {row : ApplicationInstanceRecord} {db' : Registry}
      (hnew : db.applications.lookup manifest.id = none)
      (henabled : record.enabled = manifest.enabled)
      (hstatus : row.status = if manifest.enabled then .stopped else .disabled)
      (h : Rows (db.applications.insert manifest.id record)
        (db.instances.insert manifest.id row) db') :
      CreateEffect manifest db db'

theorem createApplication_effect (yaml : ManifestYaml) (requester : Requester)
    (manifest : ApplicationManifest) (db : Registry) :
    CreateEffect manifest db (finalState (createApplication yaml requester manifest db)) := by
  refine Triple.exits (R := fun result => CreateEffect manifest db (finalState result))
    (Triple.get_bind fun db₀ hdb₀ => ?_)
  rw [hdb₀]
  refine Triple.bind (require_fact CreateEffect.taken) fun _ => Triple.forEach fun db' h => ?_
  obtain ⟨hnew, rfl⟩ := h
  have hnew : db'.applications.lookup manifest.id = none := Option.isNone_iff_eq_none.mp hnew
  intro db₁ hdb₁
  rw [hdb₁]
  let record := createRecord yaml manifest db'.clock
  let row : ApplicationInstanceRecord :=
    { id := ({ db' with clock := db'.clock + 1 } : Registry).unusedUuid
      status := if manifest.enabled then .stopped else .disabled
      createdAt := db'.clock + 1, updatedAt := db'.clock + 1 }
  have hanswer : Triple (Rows (db'.applications.insert manifest.id record)
      (db'.instances.insert manifest.id row))
      (do
        addAuditEvent requester "application.create" manifest.id "success" (auditDetails manifest)
        response yaml manifest.id record)
      (fun _ => CreateEffect manifest db') (fun _ => CreateEffect manifest db') :=
    (answer_rows yaml requester "application.create" manifest.id _ record).conseq (fun _ h => h)
      (fun _ _ h => CreateEffect.created hnew rfl rfl h)
      (fun _ _ h => CreateEffect.created hnew rfl rfl h)
  exact hanswer _ ⟨rfl, rfl⟩

/-! ### Changing -/

/-- The request raised and left the database as it was. -/
def Refused {α : Type} (db : Registry) (result : EStateM.Result Raised Registry α) : Prop :=
  ∃ raised, result = .error raised db

theorem rejectActiveApplication_spec (applicationId : String) (db : Registry) :
    Triple (fun db' => db' = db) (rejectActiveApplication applicationId)
      (fun _ db' => db.active applicationId = false ∧ db' = db) (fun _ db' => db' = db) := by
  refine Triple.get_bind fun db₀ hdb₀ => ?_
  rw [hdb₀]
  exact require_spec (fun hinactive _ h => ⟨by simpa using hinactive, h⟩) (fun _ _ h => h)

/-- The exits of `update_application`. -/
inductive UpdateEffect {α : Type} (applicationId : String) (manifest : ApplicationManifest)
    (db : Registry) : EStateM.Result Raised Registry α → Prop where
  | refused {raised : Raised} : UpdateEffect applicationId manifest db (.error raised db)
  | applied {record record' : ApplicationRecord} {result : EStateM.Result Raised Registry α}
      (hinactive : db.active applicationId = false)
      (hrecord : db.applications.lookup applicationId = some record)
      (henabled : record'.enabled = manifest.enabled)
      (h : Rows (db.applications.insert applicationId record') db.instances (finalState result)) :
      UpdateEffect applicationId manifest db result

theorem insert_lookup_self {applications : Finmap fun _ : String => ApplicationRecord}
    {applicationId : String} {record : ApplicationRecord}
    (h : applications.lookup applicationId = some record) :
    applications.insert applicationId record = applications := by
  refine Finmap.ext_lookup fun other => ?_
  by_cases hother : other = applicationId
  · rw [hother, Finmap.lookup_insert, h]
  · rw [Finmap.lookup_insert_of_ne _ hother]

theorem writeRecord_spec {applicationId : String} {record updated : ApplicationRecord}
    {db : Registry} (hrecord : db.applications.lookup applicationId = some record) :
    Triple (fun db' => db' = db) (writeRecord applicationId record updated)
      (fun record' db' => record'.enabled = updated.enabled ∧
        Rows (db.applications.insert applicationId record') db.instances db')
      (fun _ _ => False) := by
  unfold writeRecord
  split
  · rename_i hsame
    refine Triple.pure fun db' hdb' => ⟨by rw [hsame], ?_, by rw [hdb']⟩
    rw [hdb', insert_lookup_self hrecord]
  · intro db' hdb'
    rw [hdb']
    exact ⟨rfl, rfl, rfl⟩

theorem updateApplication_effect (yaml : ManifestYaml) (requester : Requester)
    (applicationId : String) (manifest : ApplicationManifest) (db : Registry) :
    UpdateEffect applicationId manifest db
      (updateApplication yaml requester applicationId manifest db) := by
  refine Triple.exits (Triple.bind (require_fact UpdateEffect.refused) fun _ =>
    Triple.get_bind fun db' h => ?_)
  rw [h.2]
  cases hrecord : db.applications.lookup applicationId with
  | none => exact Triple.throw fun _ h => h ▸ UpdateEffect.refused
  | some record =>
      refine Triple.bind ((rejectActiveApplication_spec applicationId db).conseq (fun _ h => h)
        (fun _ _ h => h) (fun _ _ h => h ▸ UpdateEffect.refused)) fun _ => Triple.forEach fun db' h => ?_
      obtain ⟨hinactive, hdb'⟩ := h
      rw [hdb']
      refine Triple.bind ((writeRecord_spec hrecord).conseq (fun _ h => h) (fun _ _ h => h)
        (fun _ _ h => h.elim)) fun record' => Triple.forEach fun db₁ h => ?_
      obtain ⟨henabled, hrows⟩ := h
      exact (answer_rows yaml requester "application.update" applicationId _ record').conseq
        (fun _ h => h ▸ hrows)
        (fun _ _ h => UpdateEffect.applied hinactive hrecord henabled h)
        (fun _ _ h => UpdateEffect.applied hinactive hrecord henabled h)

/-- An active application is not changed. -/
theorem updateApplication_refused (yaml : ManifestYaml) (requester : Requester)
    {applicationId : String} (manifest : ApplicationManifest) {db : Registry}
    (hactive : db.active applicationId = true) :
    Refused db (updateApplication yaml requester applicationId manifest db) := by
  have heffect := updateApplication_effect yaml requester applicationId manifest db
  cases hrun : updateApplication yaml requester applicationId manifest db with
  | ok response db' =>
      rw [hrun] at heffect
      cases heffect with
      | applied hinactive => exact absurd (hinactive.symm.trans hactive) (by decide)
  | error raised db' =>
      rw [hrun] at heffect
      cases heffect with
      | refused => exact ⟨raised, rfl⟩
      | applied hinactive => exact absurd (hinactive.symm.trans hactive) (by decide)

/-! ### Deleting -/

/-- The exits of `delete_application`. -/
inductive DeleteEffect (applicationId : String) (db : Registry) :
    EStateM.Result Raised Registry Unit → Prop where
  | refused {raised : Raised} : DeleteEffect applicationId db (.error raised db)
  | deleted {db' : Registry} (hinactive : db.active applicationId = false)
      (h : Rows (db.applications.erase applicationId) (db.instances.erase applicationId) db') :
      DeleteEffect applicationId db (.ok () db')

theorem deleteApplication_effect (requester : Requester) (applicationId : String) (db : Registry) :
    DeleteEffect applicationId db (deleteApplication requester applicationId db) := by
  refine Triple.exits (Triple.get_bind fun db' hdb' => ?_)
  rw [hdb']
  cases hrecord : db.applications.lookup applicationId with
  | none => exact Triple.throw fun _ h => h ▸ DeleteEffect.refused
  | some record =>
      refine Triple.bind ((rejectActiveApplication_spec applicationId db).conseq (fun _ h => h)
        (fun _ _ h => h) (fun _ _ h => h ▸ DeleteEffect.refused)) fun _ => Triple.forEach fun db' h => ?_
      obtain ⟨hinactive, hdb'⟩ := h
      rw [hdb']
      refine Triple.bind (R := fun _ => Rows (db.applications.erase applicationId)
        (db.instances.erase applicationId)) (Triple.modify fun _ h => h ▸ ⟨rfl, rfl⟩) fun _ => ?_
      exact (addAuditEvent_rows requester "application.delete" applicationId "success" _).conseq
        (fun _ h => h) (fun _ _ h => DeleteEffect.deleted hinactive h) (fun _ _ h => h.elim)

/-- An active application is not deleted. -/
theorem deleteApplication_refused (requester : Requester) {applicationId : String} {db : Registry}
    (hactive : db.active applicationId = true) :
    Refused db (deleteApplication requester applicationId db) := by
  have heffect := deleteApplication_effect requester applicationId db
  cases hrun : deleteApplication requester applicationId db with
  | ok response db' =>
      rw [hrun] at heffect
      cases heffect with
      | deleted hinactive => exact absurd (hinactive.symm.trans hactive) (by decide)
  | error raised db' =>
      rw [hrun] at heffect
      cases heffect with
      | refused => exact ⟨raised, rfl⟩

/-! ### Status -/

/-- What `status` has in hand at its lock, or has answered before it. -/
inductive LoadedStatus (service : LifecycleService) (applicationId : String) (db : Registry) :
    ApplicationStateResponse ⊕ (ApplicationManifest × InstanceObject) → Registry → Prop where
  | disabled {record : ApplicationRecord} {row : ApplicationInstanceRecord}
      {response : ApplicationStateResponse} {db' : Registry}
      (hrecord : db.applications.lookup applicationId = some record)
      (hdisabled : record.enabled = false)
      (hrow : db'.instances.lookup applicationId = some row) (hstatus : row.status = .disabled)
      (h : WrittenInstance applicationId db db') :
      LoadedStatus service applicationId db (.inl response) db'
  | found {record : ApplicationRecord} {manifest : ApplicationManifest} {state : InstanceObject}
      {db' : Registry} (hregistered : Registered service db applicationId record manifest)
      (henabled : record.enabled = true) (hstate : FoundState db applicationId state)
      (h : SameRecords db db') :
      LoadedStatus service applicationId db (.inr (manifest, state)) db'

theorem loadStatus_spec (service : LifecycleService) (applicationId : String) (db : Registry) :
    Triple (fun db' => db' = db) (service.loadStatus applicationId)
      (LoadedStatus service applicationId db) (fun _ => SameRecords db) := by
  refine Triple.bind ((application_spec service applicationId db).conseq (fun _ h => h)
    (fun _ _ h => h) (fun _ _ h => h.1 ▸ SameRecords.refl db))
    fun found => Triple.forEach fun db' hfound => ?_
  obtain ⟨record, manifest⟩ := found
  obtain ⟨hregistered, hdb'⟩ := hfound
  rw [hdb']
  refine Triple.bind ((stateRecord_spec applicationId db).conseq (fun _ h => h) (fun _ _ h => h)
    (fun _ _ h => h.elim)) fun state => Triple.forEach fun db₁ h => ?_
  obtain ⟨hstate, hsame⟩ := h
  dsimp only
  split
  · rename_i henabled
    refine Triple.pure fun db' hdb' => ?_
    rw [hdb']
    exact LoadedStatus.found hregistered henabled hstate hsame
  · rename_i hdisabled
    have happlication : (db₁.applications.lookup applicationId).isSome = true := by
      rw [hsame.applications, hregistered.stored]
      rfl
    have hcommittable : Committable db₁ { state with now.status := .disabled } :=
      (hstate.committable hsame.instances happlication).assign (SameRecords.refl db₁) rfl rfl
    refine Triple.bind ((commitInstance_spec hcommittable).conseq (fun _ h => h)
      (fun _ _ h => h) (fun _ _ h => h.elim)) fun state' => Triple.pure fun db₂ hc => ?_
    have hrow : db₂.instances.lookup applicationId = some state'.now := by
      rw [← hstate.key, ← hc.attached.stored, hc.applicationId]
    exact LoadedStatus.disabled hregistered.stored (Bool.eq_false_iff.mpr hdisabled) hrow
      (by rw [hc.now]) ((hsame.written _).trans (hstate.key ▸ hc.written))

/-- The exits of `status`, by the database they leave. -/
inductive StatusEffect (service : LifecycleService) (surroundings : Surroundings)
    (applicationId : String) (db : Registry) : Registry → Prop where
  | raised {db' : Registry} (h : SameRecords db db') :
      StatusEffect service surroundings applicationId db db'
  | disabled {record : ApplicationRecord} {row : ApplicationInstanceRecord} {db' : Registry}
      (hrecord : db.applications.lookup applicationId = some record)
      (hdisabled : record.enabled = false)
      (hrow : db'.instances.lookup applicationId = some row) (hstatus : row.status = .disabled)
      (h : WrittenInstance applicationId db db') :
      StatusEffect service surroundings applicationId db db'
  | observed {record : ApplicationRecord} {row : ApplicationInstanceRecord}
      {runtimeState : RuntimeState} {db' : Registry}
      (hrecord : db.applications.lookup applicationId = some record)
      (henabled : record.enabled = true)
      (hobservation : surroundings.observation = .returned runtimeState)
      (hrow : db'.instances.lookup applicationId = some row)
      (hstatus : row.status = runtimeState.status)
      (h : WrittenInstance applicationId db db') :
      StatusEffect service surroundings applicationId db db'

theorem status_effect (service : LifecycleService) (surroundings : Surroundings)
    (applicationId : String) (db : Registry) :
    StatusEffect service surroundings applicationId db
      (finalState (service.status surroundings applicationId db)) := by
  refine Triple.exits
    (R := fun result => StatusEffect service surroundings applicationId db (finalState result)) ?_
  refine Triple.bind ((loadStatus_spec service applicationId db).conseq (fun _ h => h)
    (fun _ _ h => h) (fun _ _ h => StatusEffect.raised h)) fun found => Triple.forEach fun db₁ h => ?_
  cases h with
  | disabled hrecord hdisabled hrow hstatus h =>
      refine Triple.pure fun db' hdb' => ?_
      rw [hdb']
      exact StatusEffect.disabled hrecord hdisabled hrow hstatus h
  | @found record manifest state _ hregistered henabled hstate hsame =>
      refine Triple.bind ((Awaited.get_spec surroundings.observation db₁).conseq (fun _ h => h)
        (fun _ _ h => h) (fun _ db' h => ?_)) fun runtimeState => Triple.forEach fun db' h => ?_
      · obtain ⟨exception, hraised, -, rfl⟩ := h
        exact StatusEffect.raised hsame
      · obtain ⟨hobservation, rfl⟩ := h
        have happlication : (db'.applications.lookup applicationId).isSome = true := by
          rw [hsame.applications, hregistered.stored]
          rfl
        have hcommittable := hstate.committable hsame.instances happlication
        refine (applyRuntimeState_spec hcommittable runtimeState).conseq (fun _ h => h)
          (fun response db'' ho => ?_) (fun _ _ h => h.elim)
        obtain ⟨row, hrow, -, hstatus⟩ := ho.row
        exact StatusEffect.observed hregistered.stored henabled hobservation (hstate.key ▸ hrow)
          hstatus ((hsame.written _).trans (hstate.key ▸ ho.written))

/-! ### Every request keeps to its application -/

theorem rows_insert_only {db db' : Registry} {applicationId : String} {record : ApplicationRecord}
    {instances : Finmap fun _ : String => ApplicationInstanceRecord}
    (h : Rows (db.applications.insert applicationId record) instances db')
    (hinstances : ∀ other, other ≠ applicationId →
      instances.lookup other = db.instances.lookup other) :
    OnlyApplication applicationId db db' where
  applications other hother := by rw [h.applications, Finmap.lookup_insert_of_ne _ hother]
  instances other hother := by rw [h.instances, hinstances other hother]

theorem CreateEffect.only {manifest : ApplicationManifest} {db db' : Registry}
    (h : CreateEffect manifest db db') : OnlyApplication manifest.id db db' := by
  cases h with
  | taken => exact (SameRecords.refl db).only _
  | created hnew henabled hstatus h =>
      exact rows_insert_only h fun other hother => Finmap.lookup_insert_of_ne _ hother

theorem UpdateEffect.only {α : Type} {applicationId : String} {manifest : ApplicationManifest}
    {db : Registry} {result : EStateM.Result Raised Registry α}
    (h : UpdateEffect applicationId manifest db result) :
    OnlyApplication applicationId db (finalState result) := by
  cases h with
  | refused => exact (SameRecords.refl db).only _
  | applied hinactive hrecord henabled h => exact rows_insert_only h fun _ _ => rfl

theorem DeleteEffect.only {applicationId : String} {db : Registry}
    {result : EStateM.Result Raised Registry Unit} (h : DeleteEffect applicationId db result) :
    OnlyApplication applicationId db (finalState result) := by
  cases h with
  | refused => exact (SameRecords.refl db).only _
  | deleted hinactive h =>
      constructor
      · intro other hother
        rw [finalState, h.applications, Finmap.lookup_erase_ne hother]
      · intro other hother
        rw [finalState, h.instances, Finmap.lookup_erase_ne hother]

theorem StatusEffect.only {service : LifecycleService} {surroundings : Surroundings}
    {applicationId : String} {db db' : Registry}
    (h : StatusEffect service surroundings applicationId db db') :
    OnlyApplication applicationId db db' := by
  cases h with
  | raised h => exact h.only _
  | disabled hrecord hdisabled hrow hstatus h => exact h.only
  | observed hrecord henabled hobservation hrow hstatus h => exact h.only

theorem Started.only {db₀ db : Registry} {run : ActionRun} (h : Started db₀ run db) :
    OnlyApplication run.applicationId db₀ db where
  applications _ _ := by rw [h.applications]
  instances := h.others

theorem Settled.only {db₀ db : Registry} {applicationId : String} {execution : ExecutionRecord}
    {finish : Finish} {status : ApplicationStatus} {calls : List AdapterCall}
    (h : Settled db₀ applicationId execution finish status calls db) :
    OnlyApplication applicationId db₀ db where
  applications _ _ := by rw [h.applications]
  instances := h.others

theorem Course.only {service : LifecycleService} {surroundings : Surroundings} {db₀ : Registry}
    {applicationId : String} {action : Action}
    {result : EStateM.Result Raised Registry LifecycleActionResponse}
    (h : Course service surroundings db₀ applicationId action result) :
    OnlyApplication applicationId db₀ (finalState result) := by
  cases h with
  | refused h hcode => exact h.only _
  | unchecked hstarts hraised hbegun => exact hbegun.name.1 ▸ hbegun.started.only
  | rejected hpreflight hreason hbegun h =>
      have honly := hbegun.name.1 ▸ hbegun.started.only
      constructor
      · intro other hother
        rw [finalState, h.applications, honly.applications other hother]
      · intro other hother
        rw [finalState, h.instances, honly.instances other hother]
  | uncalled hraised h => exact h.name.1 ▸ h.started.only
  | failed hcall hfailed h hsettled => exact hsettled.only
  | unobserved hcall hsucceeded hraised h => exact h.name.1 ▸ h.started.only
  | confirmed hcall hsucceeded hobservation h hsettled => exact hsettled.only

end MachineDeck.Lifecycle

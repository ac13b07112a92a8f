import MachineDeck.LifecycleService

/-!
# Rules for the pieces of the lifecycle service

What each piece of the service does to the database, said once.  A rule starts from a known
database `db` and relates the database it ends in to it.

* `SameRecords`, `WrittenInstance` — frames: no row differs; only one instance row differs;
* `Attached` — a session's instance object agrees with the stored row;
* `Committable`, `commitInstance_spec`, `transition_spec`, `applyRuntimeState_spec` — writing a row
  that nobody else has written never raises;
* `application_spec`, `stateRecord_spec`, `finishExecution_spec`.
-/

namespace MachineDeck.Lifecycle

open ProgramTriple

/-! ### Frames -/

/-- At most the clock and the ids given out differ. -/
structure SameRecords (db db' : Registry) : Prop where
  applications : db'.applications = db.applications
  instances : db'.instances = db.instances
  executions : db'.executions = db.executions
  auditEvents : db'.auditEvents = db.auditEvents
  calls : db'.calls = db.calls

theorem SameRecords.refl (db : Registry) : SameRecords db db := ⟨rfl, rfl, rfl, rfl, rfl⟩

theorem SameRecords.trans {db₀ db₁ db₂ : Registry} (h : SameRecords db₀ db₁)
    (h' : SameRecords db₁ db₂) : SameRecords db₀ db₂ where
  applications := h'.applications.trans h.applications
  instances := h'.instances.trans h.instances
  executions := h'.executions.trans h.executions
  auditEvents := h'.auditEvents.trans h.auditEvents
  calls := h'.calls.trans h.calls

/-- Only the instance row of this application may differ. -/
structure WrittenInstance (applicationId : String) (db db' : Registry) : Prop where
  applications : db'.applications = db.applications
  others : ∀ other, other ≠ applicationId → db'.instances.lookup other = db.instances.lookup other
  executions : db'.executions = db.executions
  auditEvents : db'.auditEvents = db.auditEvents
  calls : db'.calls = db.calls

theorem SameRecords.written {db db' : Registry} (h : SameRecords db db') (applicationId : String) :
    WrittenInstance applicationId db db' where
  applications := h.applications
  others _ _ := by rw [h.instances]
  executions := h.executions
  auditEvents := h.auditEvents
  calls := h.calls

theorem WrittenInstance.trans {applicationId : String} {db₀ db₁ db₂ : Registry}
    (h : WrittenInstance applicationId db₀ db₁) (h' : WrittenInstance applicationId db₁ db₂) :
    WrittenInstance applicationId db₀ db₂ where
  applications := h'.applications.trans h.applications
  others other hother := (h'.others other hother).trans (h.others other hother)
  executions := h'.executions.trans h.executions
  auditEvents := h'.auditEvents.trans h.auditEvents
  calls := h'.calls.trans h.calls

/-- The object holds the stored row, without pending changes. -/
structure Attached (db : Registry) (state : InstanceObject) : Prop where
  stored : db.instances.lookup state.applicationId = some state.now
  loaded : state.loaded = some state.now

theorem Attached.of_same {db db' : Registry} {state : InstanceObject} (h : Attached db state)
    (hsame : db'.instances = db.instances) : Attached db' state :=
  ⟨hsame ▸ h.stored, h.loaded⟩

/-! ### Small steps -/

theorem require_spec {condition : Bool} {raised : Raised} {P : Registry → Prop}
    {Q : Registry → Prop} {E : Raised → Registry → Prop}
    (hpass : condition = true → ∀ db, P db → Q db)
    (hraise : condition = false → ∀ db, P db → E raised db) :
    Triple P (require condition raised) (fun _ => Q) E := by
  intro db hdb
  cases hcond : condition with
  | true => exact hpass hcond db hdb
  | false => exact hraise hcond db hdb

@[simp] theorem run_utcNow (db : Registry) :
    utcNow db = .ok db.clock { db with clock := db.clock + 1 } := rfl

@[simp] theorem run_uuid4 (db : Registry) :
    uuid4 db = .ok db.unusedUuid { db with lastUuid := db.unusedUuid } := rfl

theorem sameRecords_tick (db : Registry) (clock : Time) (lastUuid : Uuid) :
    SameRecords db { db with clock := clock, lastUuid := lastUuid } := ⟨rfl, rfl, rfl, rfl, rfl⟩

/-- What stamping leaves of a row. -/
structure Stamped (row row' : ApplicationInstanceRecord) : Prop where
  id : row'.id = row.id
  createdAt : row'.createdAt = row.createdAt
  status : row'.status = row.status
  errorMessage : row'.errorMessage = row.errorMessage
  runtimeIdentifier : row'.runtimeIdentifier = row.runtimeIdentifier
  metadata : row'.metadata = row.metadata

theorem startedAtOrNow_spec (row : ApplicationInstanceRecord) (db : Registry) :
    Triple (fun db' => db' = db) (startedAtOrNow row) (fun _ db' => SameRecords db db')
      (fun _ _ => False) := by
  intro db' hdb'
  rw [hdb']
  unfold startedAtOrNow
  cases row.startedAt with
  | none => exact sameRecords_tick db _ _
  | some startedAt => exact SameRecords.refl db

theorem stampStatus_spec (row : ApplicationInstanceRecord) (db : Registry) :
    Triple (fun db' => db' = db) (stampStatus row)
      (fun row' db' => SameRecords db db' ∧ Stamped row row') (fun _ _ => False) := by
  unfold stampStatus
  split
  · refine Triple.bind (startedAtOrNow_spec row db) fun startedAt => ?_
    exact Triple.pure fun db' h => ⟨h, rfl, rfl, rfl, rfl, rfl, rfl⟩
  · split
    · intro db' hdb'
      rw [hdb']
      exact ⟨sameRecords_tick db _ _, rfl, rfl, rfl, rfl, rfl, rfl⟩
    · exact Triple.pure fun db' h => ⟨h ▸ SameRecords.refl db, rfl, rfl, rfl, rfl, rfl, rfl⟩

/-! ### Writing an instance row -/

theorem writtenBack_self {α : Type} [DecidableEq α] (loaded now : α) :
    writtenBack loaded now loaded = now := by
  unfold writtenBack
  split
  · rename_i h
    exact h.symm
  · rfl

/-- Writing back over the very row that was loaded stores the object. -/
theorem writeBack_loaded {loaded now : ApplicationInstanceRecord} (hid : now.id = loaded.id)
    (hcreated : now.createdAt = loaded.createdAt) (updatedAt : Time) :
    loaded.writeBack now loaded updatedAt = { now with updatedAt := updatedAt } := by
  obtain ⟨id, status, runtime, started, stopped, exit, message, metadata, created, updated⟩ := now
  subst hid hcreated
  simp only [ApplicationInstanceRecord.writeBack, writtenBack_self]

/-- What a commit or a refresh of the object `state` leaves: the object of the stored row. -/
structure Committed (state : InstanceObject) (db : Registry) (state' : InstanceObject)
    (db' : Registry) : Prop where
  attached : Attached db' state'
  applicationId : state'.applicationId = state.applicationId
  now : state'.now = { state.now with updatedAt := state'.now.updatedAt }
  written : WrittenInstance state.applicationId db db'

theorem writtenInstance_put (db : Registry) (applicationId : String)
    (row : ApplicationInstanceRecord) :
    WrittenInstance applicationId db (db.putInstance applicationId row) where
  applications := rfl
  others _ hother := Finmap.lookup_insert_of_ne _ hother
  executions := rfl
  auditEvents := rfl
  calls := rfl

/-- A commit of the object does not raise: its row has not changed since it was loaded, or it is
to be inserted and its application is there. -/
inductive Committable (db : Registry) (state : InstanceObject) : Prop where
  | update {loaded : ApplicationInstanceRecord} (hloaded : state.loaded = some loaded)
      (hstored : db.instances.lookup state.applicationId = some loaded)
      (hid : state.now.id = loaded.id) (hcreated : state.now.createdAt = loaded.createdAt)
  | insert (hpending : state.loaded = none)
      (happlication : (db.applications.lookup state.applicationId).isSome = true)

theorem Attached.committable {db : Registry} {state : InstanceObject} (h : Attached db state) :
    Committable db state :=
  Committable.update h.loaded h.stored rfl rfl

/-- The object stays committable when attributes are assigned. -/
theorem Committable.assign {db db' : Registry} {state : InstanceObject}
    {now : ApplicationInstanceRecord} (h : Committable db state) (hsame : SameRecords db db')
    (hid : now.id = state.now.id) (hcreated : now.createdAt = state.now.createdAt) :
    Committable db' { state with now } := by
  cases h with
  | update hloaded hstored hid' hcreated' =>
      exact Committable.update hloaded (hsame.instances ▸ hstored) (hid.trans hid')
        (hcreated.trans hcreated')
  | insert hpending happlication =>
      exact Committable.insert hpending (hsame.applications ▸ happlication)

theorem insertInstance_spec {db : Registry} {state : InstanceObject}
    (happlication : (db.applications.lookup state.applicationId).isSome = true) :
    Triple (fun db' => db' = db) (insertInstance state) (Committed state db)
      (fun _ _ => False) := by
  intro db' hdb'
  rw [hdb']
  have hrun : insertInstance state db = .ok { state with loaded := some state.now }
      (db.putInstance state.applicationId state.now) := by
    simp only [insertInstance, run_bind, run_get, require, happlication, if_true, run_pure,
      run_modify]
  rw [hrun]
  exact ⟨⟨Finmap.lookup_insert _, rfl⟩, rfl, rfl, writtenInstance_put _ _ _⟩

theorem updateInstance_spec {db : Registry} {state : InstanceObject}
    {loaded : ApplicationInstanceRecord}
    (hstored : db.instances.lookup state.applicationId = some loaded)
    (hid : state.now.id = loaded.id) (hcreated : state.now.createdAt = loaded.createdAt) :
    Triple (fun db' => db' = db) (updateInstance state loaded) (Committed state db)
      (fun _ _ => False) := by
  intro db' hdb'
  rw [hdb']
  let now := { state.now with updatedAt := db.clock }
  have hput : loaded.writeBack now loaded db.clock = now := writeBack_loaded hid hcreated _
  have hrun : updateInstance state loaded db = .ok { state with loaded := some now, now }
      (({ db with clock := db.clock + 1 } : Registry).putInstance state.applicationId now) := by
    simp only [updateInstance, run_bind, run_utcNow, run_get, hstored, require, decide_true,
      if_true, run_pure, run_modify]
    rw [hput]
  rw [hrun]
  refine ⟨⟨Finmap.lookup_insert _, rfl⟩, rfl, rfl, ?_⟩
  exact ((sameRecords_tick db _ _).written _).trans (writtenInstance_put _ _ _)

/-- An object whose row has not changed under it is committed as it is. -/
theorem commitInstance_spec {db : Registry} {state : InstanceObject} (h : Committable db state) :
    Triple (fun db' => db' = db) (commitInstance state) (Committed state db)
      (fun _ _ => False) := by
  unfold commitInstance
  cases h with
  | insert hpending happlication =>
      rw [hpending]
      exact insertInstance_spec happlication
  | update hloaded hstored hid hcreated =>
      rw [hloaded]
      dsimp only
      split
      · rename_i hsame
        refine Triple.pure fun db' hdb' => ?_
        rw [hdb']
        exact ⟨⟨hsame ▸ hstored, hsame ▸ hloaded⟩, rfl, rfl, (SameRecords.refl db).written _⟩
      · exact updateInstance_spec hstored hid hcreated

theorem refreshInstance_spec {db : Registry} {state : InstanceObject} (h : Attached db state) :
    Triple (fun db' => db' = db) (refreshInstance state)
      (fun state' db' => state' = state ∧ db' = db) (fun _ _ => False) := by
  intro db' hdb'
  rw [hdb']
  have hrun : refreshInstance state db =
      .ok { state with loaded := some state.now, now := state.now } db := by
    simp only [refreshInstance, run_bind, run_get, h.stored, require, decide_true, if_true,
      run_pure]
  rw [hrun]
  refine ⟨?_, rfl⟩
  rw [← h.loaded]

/-- What a transition leaves: the row of the object with the new status. -/
structure Moved (state : InstanceObject) (target : ApplicationStatus)
    (errorMessage : Option String) (db : Registry) (state' : InstanceObject)
    (db' : Registry) : Prop where
  attached : Attached db' state'
  applicationId : state'.applicationId = state.applicationId
  status : state'.now.status = target
  errorMessage : state'.now.errorMessage = errorMessage
  written : WrittenInstance state.applicationId db db'

theorem transition_spec {db : Registry} {state : InstanceObject} (h : Committable db state)
    (target : ApplicationStatus) (errorMessage : Option String) :
    Triple (fun db' => db' = db) (transition state target errorMessage)
      (Moved state target errorMessage db) (fun _ _ => False) := by
  refine Triple.bind (stampStatus_spec _ db) fun now => Triple.forEach fun db₁ h₁ => ?_
  obtain ⟨hsame, hstamped⟩ := h₁
  refine (commitInstance_spec (h.assign hsame hstamped.id hstamped.createdAt)).conseq
    (fun _ hdb => hdb) (fun state' db' hc => ?_) (fun _ _ hf => hf)
  refine ⟨hc.attached, hc.applicationId, ?_, ?_, (hsame.written _).trans hc.written⟩
  · rw [hc.now]
    exact hstamped.status
  · rw [hc.now]
    exact hstamped.errorMessage

/-- What a runtime observation leaves: its status is the row's and the response's. -/
structure Observed (applicationId : String) (runtimeState : RuntimeState) (db : Registry)
    (response : ApplicationStateResponse) (db' : Registry) : Prop where
  row : ∃ row, db'.instances.lookup applicationId = some row ∧
    response = stateResponse applicationId row ∧ row.status = runtimeState.status
  written : WrittenInstance applicationId db db'

theorem applyRuntimeState_spec {db : Registry} {state : InstanceObject}
    (h : Committable db state) (runtimeState : RuntimeState) :
    Triple (fun db' => db' = db) (applyRuntimeState state runtimeState)
      (Observed state.applicationId runtimeState db) (fun _ _ => False) := by
  refine Triple.bind (stampStatus_spec _ db) fun now => Triple.forEach fun db₁ h₁ => ?_
  obtain ⟨hsame, hstamped⟩ := h₁
  refine Triple.bind (commitInstance_spec (h.assign hsame hstamped.id hstamped.createdAt))
    fun state' => Triple.forEach fun db' hc => ?_
  refine Triple.bind (refreshInstance_spec hc.attached) fun state'' => Triple.pure fun db'' hr => ?_
  obtain ⟨hstate, hdb⟩ := hr
  rw [hstate, hdb]
  have happ : state'.applicationId = state.applicationId := hc.applicationId
  refine ⟨⟨state'.now, happ ▸ hc.attached.stored, by rw [happ], ?_⟩,
    (hsame.written _).trans hc.written⟩
  rw [hc.now]
  exact hstamped.status

/-! ### Reading rows -/

/-- The status that the service finds: a missing row counts as stopped. -/
def Registry.persistedStatus (db : Registry) (applicationId : String) : ApplicationStatus :=
  ((db.instances.lookup applicationId).map ApplicationInstanceRecord.status).getD .stopped

theorem persistedStatus_of_row {db : Registry} {applicationId : String}
    {row : ApplicationInstanceRecord} (h : db.instances.lookup applicationId = some row) :
    db.persistedStatus applicationId = row.status := by
  rw [Registry.persistedStatus, h]
  rfl

/-- What `_application` returns. -/
structure Registered (service : LifecycleService) (db : Registry) (applicationId : String)
    (record : ApplicationRecord) (manifest : ApplicationManifest) : Prop where
  stored : db.applications.lookup applicationId = some record
  loaded : service.yaml.load record.configYaml = some manifest
  valid : (validateManifestPaths service.host manifest).valid = true

/-- The exception is not the refusal of a transition. -/
def NotTransition (raised : Raised) : Prop :=
  raised.code ≠ some "STATE_TRANSITION_INVALID"

theorem notTransition_of_code {code message : String} {conflicts : List PortConflict}
    (h : code ≠ "STATE_TRANSITION_INVALID") : NotTransition (lifecycleError code message conflicts) :=
  fun heq => h (Option.some.inj heq)

theorem application_spec (service : LifecycleService) (applicationId : String) (db : Registry) :
    Triple (fun db' => db' = db) (service.application applicationId)
      (fun found db' => Registered service db applicationId found.1 found.2 ∧ db' = db)
      (fun raised db' => db' = db ∧ NotTransition raised) := by
  refine Triple.get_bind fun db' hdb' => ?_
  rw [hdb']
  split
  · exact Triple.throw fun _ h => ⟨h, notTransition_of_code (by decide)⟩
  · rename_i record hrecord
    split
    · exact Triple.throw fun _ h => ⟨h, fun hcode => by cases hcode⟩
    · rename_i manifest hmanifest
      refine Triple.bind (R := fun _ db' =>
        (validateManifestPaths service.host manifest).valid = true ∧ db' = db)
        (require_spec (fun hvalid _ h => ⟨hvalid, h⟩)
          (fun _ _ h => ⟨h, notTransition_of_code (by decide)⟩)) fun _ => ?_
      exact Triple.pure fun _ h => ⟨⟨hrecord, hmanifest, h.1⟩, h.2⟩

/-- What `_state_record` returns. -/
structure FoundState (db : Registry) (applicationId : String) (state : InstanceObject) : Prop where
  key : state.applicationId = applicationId
  status : state.now.status = db.persistedStatus applicationId
  row : ∀ row, db.instances.lookup applicationId = some row →
    state.loaded = some row ∧ state.now = row
  pending : db.instances.lookup applicationId = none → state.loaded = none

theorem FoundState.committable {db db' : Registry} {applicationId : String}
    {state : InstanceObject} (h : FoundState db applicationId state)
    (hinstances : db'.instances = db.instances)
    (happlication : (db'.applications.lookup applicationId).isSome = true) :
    Committable db' state := by
  obtain ⟨rfl, -, hrow, hpending⟩ := h
  cases hlookup : db.instances.lookup state.applicationId with
  | none => exact Committable.insert (hpending hlookup) happlication
  | some row =>
      obtain ⟨hloaded, hnow⟩ := hrow row hlookup
      refine Committable.update hloaded ?_ (congrArg _ hnow) (congrArg _ hnow)
      rw [hinstances, hlookup]

theorem stateRecord_spec (applicationId : String) (db : Registry) :
    Triple (fun db' => db' = db) (stateRecord applicationId)
      (fun state db' => FoundState db applicationId state ∧ SameRecords db db')
      (fun _ _ => False) := by
  intro db' hdb'
  rw [hdb']
  cases hrow : db.instances.lookup applicationId with
  | some row =>
      have hrun : stateRecord applicationId db =
          .ok { applicationId, loaded := some row, now := row } db := by
        simp only [stateRecord, run_bind, run_get, hrow, run_pure]
      rw [hrun]
      refine ⟨⟨rfl, ?_, fun row' h => ?_, fun h => ?_⟩, SameRecords.refl db⟩
      · rw [Registry.persistedStatus, hrow]
        rfl
      · rw [hrow] at h
        cases h
        exact ⟨rfl, rfl⟩
      · rw [hrow] at h
        cases h
  | none =>
      have hrun : stateRecord applicationId db = .ok
          { applicationId, loaded := none
            now := { id := db.unusedUuid, status := .stopped, createdAt := db.clock
                     updatedAt := db.clock } }
          { db with clock := db.clock + 1, lastUuid := db.unusedUuid } := by
        simp only [stateRecord, run_bind, run_get, hrow, run_pure, run_uuid4, run_utcNow]
      rw [hrun]
      refine ⟨⟨rfl, ?_, fun row' h => ?_, fun _ => rfl⟩, sameRecords_tick db _ _⟩
      · rw [Registry.persistedStatus, hrow]
        rfl
      · rw [hrow] at h
        cases h

end MachineDeck.Lifecycle

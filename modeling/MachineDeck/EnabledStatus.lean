import MachineDeck.LifecycleRuns

/-!
# The enabled flag and the persisted status

The flag is a column of the registry row, the status one of the instance row, and different
requests write them.

* `NotDisabled`, `StatusAgrees` — an enabled application is not persisted as disabled;
* `Consistent` — no update enables an application that is persisted as disabled, and no adapter
  reports that status;
* `enabled_status_agrees` — so the two agree in every state of every run of such requests, and a
  start is refused its transition only while the workload is up.
-/

namespace MachineDeck.Lifecycle

open ProgramTriple GuardedRuns

/-! ### One application -/

/-- An enabled application is not persisted as `DISABLED`. -/
def NotDisabled (db : Registry) (applicationId : String) : Prop :=
  ∀ record, db.applications.lookup applicationId = some record → record.enabled = true →
    db.persistedStatus applicationId ≠ .disabled

theorem NotDisabled.of_same {db db' : Registry} {applicationId : String}
    (h : NotDisabled db applicationId)
    (happlications : db'.applications.lookup applicationId = db.applications.lookup applicationId)
    (hinstances : db'.instances.lookup applicationId = db.instances.lookup applicationId) :
    NotDisabled db' applicationId := by
  intro record hrecord henabled
  rw [Registry.persistedStatus, hinstances]
  exact h record (happlications ▸ hrecord) henabled

theorem NotDisabled.of_status {db : Registry} {applicationId : String}
    {row : ApplicationInstanceRecord} (hrow : db.instances.lookup applicationId = some row)
    (hstatus : row.status ≠ .disabled) : NotDisabled db applicationId := by
  intro _ _ _
  rw [persistedStatus_of_row hrow]
  exact hstatus

/-! ### Requests -/

/-- The request does not enable an application that is persisted as disabled, and its adapter does
not report `DISABLED`. -/
def Consistent (db : Registry) (request : Request) : Prop :=
  match request.operation with
  | .update applicationId manifest =>
    manifest.enabled = true → db.persistedStatus applicationId ≠ .disabled
  | .status _ surroundings =>
    ∀ runtimeState, surroundings.observation = .returned runtimeState →
      runtimeState.status ≠ .disabled
  | .action _ _ surroundings =>
    ∀ runtimeState, surroundings.observation = .returned runtimeState →
      runtimeState.status ≠ .disabled
  | _ => True

theorem CreateEffect.notDisabled {manifest : ApplicationManifest} {db db' : Registry}
    (h : CreateEffect manifest db db') (hbefore : NotDisabled db manifest.id) :
    NotDisabled db' manifest.id := by
  cases h with
  | taken => exact hbefore
  | created hnew henabled hstatus h =>
      intro record hrecord henabled'
      rw [h.applications, Finmap.lookup_insert] at hrecord
      cases hrecord
      rw [persistedStatus_of_row (h.instances ▸ Finmap.lookup_insert _), hstatus,
        if_pos (henabled ▸ henabled')]
      decide

theorem UpdateEffect.notDisabled {α : Type} {applicationId : String}
    {manifest : ApplicationManifest} {db : Registry} {result : EStateM.Result Raised Registry α}
    (h : UpdateEffect applicationId manifest db result) (hbefore : NotDisabled db applicationId)
    (hconsistent : manifest.enabled = true → db.persistedStatus applicationId ≠ .disabled) :
    NotDisabled (finalState result) applicationId := by
  cases h with
  | refused => exact hbefore
  | applied hinactive hrecord henabled h =>
      intro record' hrecord' henabled'
      rw [h.applications, Finmap.lookup_insert] at hrecord'
      cases hrecord'
      rw [Registry.persistedStatus, h.instances]
      exact hconsistent (henabled ▸ henabled')

theorem DeleteEffect.notDisabled {applicationId : String} {db : Registry}
    {result : EStateM.Result Raised Registry Unit} (h : DeleteEffect applicationId db result)
    (hbefore : NotDisabled db applicationId) : NotDisabled (finalState result) applicationId := by
  cases h with
  | refused => exact hbefore
  | deleted hinactive h =>
      intro record hrecord
      rw [finalState, h.applications, Finmap.lookup_erase] at hrecord
      cases hrecord

theorem StatusEffect.notDisabled {service : LifecycleService} {surroundings : Surroundings}
    {applicationId : String} {db db' : Registry}
    (h : StatusEffect service surroundings applicationId db db')
    (hbefore : NotDisabled db applicationId)
    (hconsistent : ∀ runtimeState, surroundings.observation = .returned runtimeState →
      runtimeState.status ≠ .disabled) : NotDisabled db' applicationId := by
  cases h with
  | raised h => exact hbefore.of_same (by rw [h.applications]) (by rw [h.instances])
  | disabled hrecord hdisabled hrow hstatus h =>
      intro record hrecord' henabled
      rw [h.applications, hrecord] at hrecord'
      cases hrecord'
      exact absurd (hdisabled.symm.trans henabled) (by decide)
  | observed hrecord henabled hobservation hrow hstatus h =>
      exact NotDisabled.of_status hrow (hstatus ▸ hconsistent _ hobservation)

/-- An execution was created, and nothing else has happened to the application. -/
theorem Begun.notDisabled {service : LifecycleService} {db₀ db : Registry} {applicationId : String}
    {action : Action} {run : ActionRun} (h : Begun service db₀ applicationId action run db)
    (hbefore : NotDisabled db₀ applicationId) : NotDisabled db applicationId := by
  obtain ⟨record, hregistered, henabled⟩ := h.registered
  have hrow : db.instances.lookup applicationId = some run.state.now :=
    h.name.1 ▸ h.started.key ▸ h.started.attached.stored
  refine NotDisabled.of_status hrow ?_
  rw [h.status, h.name.1]
  exact hbefore record (h.name.1 ▸ hregistered.stored) henabled

theorem Entered.notDisabled {service : LifecycleService} {preflight : Preflight}
    {db₀ db : Registry} {applicationId : String} {action : Action} {run : ActionRun}
    (h : Entered service preflight db₀ applicationId action run db) :
    NotDisabled db applicationId := by
  have hrow : db.instances.lookup applicationId = some run.state.now :=
    h.name.1 ▸ h.started.key ▸ h.started.attached.stored
  refine NotDisabled.of_status hrow ?_
  rw [h.status]
  cases action <;> decide

/-- **One action keeps the agreement**, exit by exit. -/
theorem Course.notDisabled {service : LifecycleService} {surroundings : Surroundings}
    {db₀ : Registry} {applicationId : String} {action : Action}
    {result : EStateM.Result Raised Registry LifecycleActionResponse}
    (h : Course service surroundings db₀ applicationId action result)
    (hbefore : NotDisabled db₀ applicationId)
    (hconsistent : ∀ runtimeState, surroundings.observation = .returned runtimeState →
      runtimeState.status ≠ .disabled) : NotDisabled (finalState result) applicationId := by
  cases h with
  | refused h hcode =>
      exact hbefore.of_same (by rw [finalState, h.applications]) (by rw [finalState, h.instances])
  | unchecked hstarts hraised hbegun => exact hbegun.notDisabled hbefore
  | rejected hpreflight hreason hbegun h =>
      exact (hbegun.notDisabled hbefore).of_same (by rw [finalState, h.applications])
        (by rw [finalState, h.instances])
  | uncalled hraised h => exact h.notDisabled
  | unobserved hcall hsucceeded hraised h => exact h.notDisabled
  | failed hcall hfailed h hsettled =>
      obtain ⟨row, hrow, hstatus⟩ := hsettled.row
      exact NotDisabled.of_status hrow (hstatus ▸ by decide)
  | confirmed hcall hsucceeded hobservation h hsettled =>
      obtain ⟨row, hrow, hstatus⟩ := hsettled.row
      exact NotDisabled.of_status hrow (hstatus ▸ hconsistent _ hobservation)

/-! ### Runs -/

/-- One request to the registry. -/
def RegistryStep (db : Registry) (request : Request) (db' : Registry) : Prop :=
  db' = request.perform db

theorem notDisabled_step {db db' : Registry} {request : Request}
    (h : ∀ applicationId, NotDisabled db applicationId) (hconsistent : Consistent db request)
    (hstep : RegistryStep db request db') (applicationId : String) :
    NotDisabled db' applicationId := by
  rw [hstep]
  by_cases hid : applicationId = request.operation.applicationId
  · rw [hid]
    obtain ⟨service, operation⟩ := request
    cases operation with
    | create manifest => exact (createApplication_effect _ _ manifest db).notDisabled (h _)
    | update applicationId manifest =>
        exact (updateApplication_effect _ _ applicationId manifest db).notDisabled (h _) hconsistent
    | delete applicationId =>
        exact (deleteApplication_effect _ applicationId db).notDisabled (h _)
    | status applicationId surroundings =>
        exact (status_effect service surroundings applicationId db).notDisabled (h _) hconsistent
    | action applicationId name surroundings =>
        cases hname : Action.ofName name with
        | none =>
            show NotDisabled (finalState (service.action surroundings applicationId name db)) _
            rw [action_unknown service surroundings db applicationId hname]
            exact h _
        | some action =>
            exact (action_course service surroundings db applicationId hname).notDisabled (h _)
              hconsistent
  · have honly := request.perform_only db
    exact (h applicationId).of_same (honly.applications _ hid) (honly.instances _ hid)

/-- The flag and the status of every application agree, and a start of an enabled application is
refused its transition only from a status in which its workload is up. -/
structure StatusAgrees (db : Registry) : Prop where
  notDisabled : ∀ applicationId record row,
    db.applications.lookup applicationId = some record → record.enabled = true →
      db.instances.lookup applicationId = some row → row.status ≠ .disabled
  start : ∀ (service : LifecycleService) (surroundings : Surroundings) (applicationId : String)
    (error : LifecycleError) (db' : Registry),
    service.action surroundings applicationId "start" db = .error (.lifecycle error) db' →
      error.code = "STATE_TRANSITION_INVALID" →
        db.persistedStatus applicationId = .unhealthy ∨
          db.persistedStatus applicationId = .stopping

/-- The statuses from which a start that was admitted cannot be checked. -/
theorem start_refused {status : ApplicationStatus} (hdisabled : status ≠ .disabled)
    (hadmitted : alreadyRunning .start status = false)
    (hrefused : requireTransition status Action.start.firstStatus = false) :
    status = .unhealthy ∨ status = .stopping := by
  revert hdisabled hadmitted hrefused
  cases status <;> decide

theorem statusAgrees_of_notDisabled {db : Registry}
    (h : ∀ applicationId, NotDisabled db applicationId) : StatusAgrees db where
  notDisabled applicationId record row hrecord henabled hrow := by
    rw [← persistedStatus_of_row hrow]
    exact h applicationId record hrecord henabled
  start service surroundings applicationId error db' hraised hcode := by
    have hname : Action.ofName "start" = some .start := by decide
    have hcourse := action_course service surroundings db applicationId hname
    rw [hraised] at hcourse
    cases hcourse with
    | refused hsame hother => exact absurd (congrArg some hcode) hother
    | rejected hpreflight hreason hbegun hrejected =>
        obtain ⟨record, hregistered, henabled⟩ := hbegun.registered
        obtain ⟨happ, haction⟩ := hbegun.name
        have hstatus := hbegun.status
        rw [happ] at hregistered hstatus
        rcases hreason with ⟨-, hother⟩ | hrefused
        · exact absurd hcode hother
        · have hadmitted := hbegun.admitted.1
          rw [hstatus, haction] at hadmitted
          exact start_refused (h applicationId record hregistered.stored henabled) hadmitted hrefused

/-- **When the flag and the status agree.**  They do in every state of every run of requests none
of which enables an application that is persisted as disabled or meets an adapter that reports
`DISABLED`. -/
theorem enabled_status_agrees (db : Registry) (h : Reach RegistryStep Consistent {} db) :
    StatusAgrees db := by
  refine statusAgrees_of_notDisabled (h.invariant (fun applicationId record hrecord => ?_)
    fun _ _ _ hbefore hconsistent hstep => notDisabled_step hbefore hconsistent hstep)
  cases hrecord

/-! ### An application that is created disabled -/

def createResting : Request := ⟨ollamaService, .create restingOllama⟩

def enableOllama : Request := ⟨ollamaService, .update "ollama" ollama⟩

theorem enabled_status_agrees_resting : StatusAgrees (createResting.perform {}) := by
  have hconsistent : Consistent {} createResting := trivial
  exact enabled_status_agrees (createResting.perform {})
    (Reach.next Reach.start hconsistent rfl)

set_option maxRecDepth 8000 in
/-- Creating an application disabled and enabling it leaves its status `DISABLED`. -/
theorem enabled_status_disagrees :
    ¬ ∀ db, Reach RegistryStep Anyhow {} db → StatusAgrees db := by
  intro h
  let db := enableOllama.perform (createResting.perform {})
  have hreach : Reach RegistryStep Anyhow {} db :=
    Reach.next (Reach.next Reach.start trivial (rfl : RegistryStep {} createResting _)) trivial
      (rfl : RegistryStep _ enableOllama _)
  have hagrees := (h db hreach).notDisabled "ollama"
  have hrecord : ∃ record, db.applications.lookup "ollama" = some record ∧
      record.enabled = true := ⟨_, rfl, by decide⟩
  have hrow : ∃ row, db.instances.lookup "ollama" = some row ∧
      row.status = .disabled := ⟨_, rfl, by decide⟩
  obtain ⟨record, hrecord, henabled⟩ := hrecord
  obtain ⟨row, hrow, hstatus⟩ := hrow
  exact hagrees record row hrecord henabled hrow hstatus

end MachineDeck.Lifecycle

import MachineDeck.LifecycleRuns
import MachineDeck.RecordedRuns

/-!
# The instance row through a call

What `status` and `action` leave in the row of their application, piece by piece.

* `Call`, `Call.stages` — a call, and the registry after each of its pieces;
* `stamped` — the start and stop times that go with a status;
* `Effect` — what a piece can do to the row: leave it, insert it, move it to a status without
  times, or record an observation;
* `PieceStep`, `Call.stages_steps` — every piece of a call has its effect on the row;
* `runStages`, `runStages_steps` — the pieces of a run of calls.
-/

namespace MachineDeck.Lifecycle

open ProgramTriple RecordedRuns

/-! ### Calls -/

/-- A call with the answers to its awaits. -/
inductive Call where
  | status (surroundings : Surroundings)
  | action (name : String) (surroundings : Surroundings)

/-- What a piece of a call is about: it begins an action, it records an observation, or neither. -/
inductive Piece where
  | quiet
  | begun
  | recorded (runtimeState : RuntimeState)

section
variable (service : LifecycleService) (applicationId : String)

def statusStages (surroundings : Surroundings) (db : Registry) : List (Piece × Registry) :=
  match service.loadStatus applicationId db with
  | .error _ db => [(.quiet, db)]
  | .ok (.inl _) db => [(.quiet, db)]
  | .ok (.inr (_, state)) db =>
    match surroundings.observation with
    | .raised _ => [(.quiet, db)]
    | .returned runtimeState =>
      [(.quiet, db), (.recorded runtimeState, finalState (applyRuntimeState state runtimeState db))]

def actionStages (surroundings : Surroundings) (action : Action) (db : Registry) :
    List (Piece × Registry) :=
  match service.beginAction applicationId action db with
  | .error _ db => [(.quiet, db)]
  | .ok run db₁ =>
    (.begun, db₁) ::
      match service.afterPreflight run surroundings.preflight db₁ with
      | .error _ db => [(.quiet, db)]
      | .ok run db₂ =>
        (.quiet, db₂) ::
          match surroundings.call with
          | .raised _ => []
          | .returned result =>
            match service.afterCall run result db₂ with
            | .error _ db => [(.quiet, db)]
            | .ok (some _) db => [(.quiet, db)]
            | .ok none db₃ =>
              match surroundings.observation with
              | .raised _ => [(.quiet, db₃)]
              | .returned runtimeState =>
                [(.quiet, db₃), (.recorded runtimeState,
                  finalState (service.afterStatus run result runtimeState db₃))]

/-- The pieces of a call, each with the registry after it. -/
def Call.stages (call : Call) (db : Registry) : List (Piece × Registry) :=
  match call with
  | .status surroundings => statusStages service applicationId surroundings db
  | .action name surroundings =>
    match Action.ofName name with
    | none => [(.quiet, db)]
    | some known => actionStages service applicationId surroundings known db

/-- The registry after a call. -/
def Call.perform (call : Call) (db : Registry) : Registry :=
  match call with
  | .status surroundings => finalState (service.status surroundings applicationId db)
  | .action name surroundings =>
    finalState (service.action surroundings applicationId name db)

end

theorem statusStages_end (service : LifecycleService) (applicationId : String)
    (surroundings : Surroundings) (db : Registry) :
    endOf db (statusStages service applicationId surroundings db) =
      finalState (service.status surroundings applicationId db) := by
  unfold statusStages LifecycleService.status
  rw [run_bind]
  cases service.loadStatus applicationId db with
  | error raised db' => rfl
  | ok found db' =>
      cases found with
      | inl response => rfl
      | inr loaded =>
          obtain ⟨manifest, state⟩ := loaded
          cases surroundings.observation with
          | raised exception => rfl
          | returned runtimeState => rfl

theorem actionStages_end (service : LifecycleService) (applicationId : String)
    (surroundings : Surroundings) (action : Action) (db : Registry) :
    endOf db (actionStages service applicationId surroundings action db) =
      finalState (service.lockedAction surroundings applicationId action db) := by
  unfold actionStages LifecycleService.lockedAction
  rw [run_bind]
  cases service.beginAction applicationId action db with
  | error raised db' => rfl
  | ok run db₁ =>
      dsimp only
      rw [run_bind]
      cases service.afterPreflight run surroundings.preflight db₁ with
      | error raised db' => rfl
      | ok run db₂ =>
          cases surroundings.call with
          | raised exception => rfl
          | returned result =>
              dsimp only
              rw [run_bind]
              show _ = finalState ((service.afterCall run result >>= _) db₂)
              rw [run_bind]
              cases service.afterCall run result db₂ with
              | error raised db' => rfl
              | ok response db₃ =>
                  cases response with
                  | some response => rfl
                  | none =>
                      cases surroundings.observation with
                      | raised exception => rfl
                      | returned runtimeState => rfl

/-- The pieces of a call lead to where the call does. -/
theorem Call.stages_end (call : Call) (service : LifecycleService) (applicationId : String)
    (db : Registry) :
    endOf db (call.stages service applicationId db) = call.perform service applicationId db := by
  cases call with
  | status surroundings => exact statusStages_end service applicationId surroundings db
  | action name surroundings =>
      simp only [Call.stages, Call.perform]
      cases hname : Action.ofName name with
      | none =>
          rw [action_unknown service surroundings db applicationId hname]
          rfl
      | some known =>
          simp only [LifecycleService.action, hname]
          exact actionStages_end service applicationId surroundings known db

/-! ### The clock -/

section Clock

variable (now : Time)

/-- The clock does not go below a time. -/
def NotBefore (db : Registry) : Prop := now ≤ db.clock

theorem utcNow_notBefore : Keeps (NotBefore now) utcNow :=
  Keeps.modifyGet fun _ h => Nat.le_succ_of_le h

theorem uuid4_notBefore : Keeps (NotBefore now) uuid4 := Keeps.modifyGet fun _ h => h

theorem require_notBefore (condition : Bool) (raised : Raised) :
    Keeps (NotBefore now) (require condition raised) :=
  require_spec (fun _ _ h => h) (fun _ _ h => h)

theorem stampStatus_notBefore (row : ApplicationInstanceRecord) :
    Keeps (NotBefore now) (stampStatus row) := by
  unfold stampStatus startedAtOrNow
  split
  · refine Keeps.bind ?_ fun _ => Keeps.pure _
    split
    · exact Keeps.pure _
    · exact utcNow_notBefore now
  · split
    · exact Keeps.bind (utcNow_notBefore now) fun _ => Keeps.pure _
    · exact Keeps.pure _

theorem commitInstance_notBefore (state : InstanceObject) :
    Keeps (NotBefore now) (commitInstance state) := by
  unfold commitInstance insertInstance updateInstance
  split
  · refine Keeps.get_bind fun db _ => Keeps.bind (require_notBefore now _ _) fun _ => ?_
    exact Keeps.bind (Keeps.modify fun _ h => h) fun _ => Keeps.pure _
  · split
    · exact Keeps.pure _
    · refine Keeps.bind (utcNow_notBefore now) fun updatedAt => Keeps.get_bind fun db _ => ?_
      split
      · exact Keeps.throw _
      · refine Keeps.bind (require_notBefore now _ _) fun _ => ?_
        exact Keeps.bind (Keeps.modify fun _ h => h) fun _ => Keeps.pure _

theorem refreshInstance_notBefore (state : InstanceObject) :
    Keeps (NotBefore now) (refreshInstance state) := by
  refine Keeps.get_bind fun db _ => ?_
  split
  · exact Keeps.throw _
  · exact Keeps.bind (require_notBefore now _ _) fun _ => Keeps.pure _

theorem stateRecord_notBefore (applicationId : String) :
    Keeps (NotBefore now) (stateRecord applicationId) := by
  refine Keeps.get_bind fun db _ => ?_
  split
  · exact Keeps.pure _
  · refine Keeps.bind (uuid4_notBefore now) fun _ => Keeps.bind (utcNow_notBefore now) fun _ => ?_
    exact Keeps.pure _

theorem transition_notBefore (state : InstanceObject) (target : ApplicationStatus)
    (errorMessage : Option String) : Keeps (NotBefore now) (transition state target errorMessage) :=
  Keeps.bind (stampStatus_notBefore now _) fun _ => commitInstance_notBefore now _

theorem applyRuntimeState_notBefore (state : InstanceObject) (runtimeState : RuntimeState) :
    Keeps (NotBefore now) (applyRuntimeState state runtimeState) := by
  refine Keeps.bind (stampStatus_notBefore now _) fun _ => ?_
  refine Keeps.bind (commitInstance_notBefore now _) fun _ => ?_
  exact Keeps.bind (refreshInstance_notBefore now _) fun _ => Keeps.pure _

variable (service : LifecycleService)

theorem application_notBefore (applicationId : String) :
    Keeps (NotBefore now) (service.application applicationId) := by
  refine Keeps.get_bind fun db _ => ?_
  split
  · exact Keeps.throw _
  · split
    · exact Keeps.throw _
    · exact Keeps.bind (require_notBefore now _ _) fun _ => Keeps.pure _

theorem loadStatus_notBefore (applicationId : String) :
    Keeps (NotBefore now) (service.loadStatus applicationId) := by
  refine Keeps.bind (application_notBefore now service _) fun _ => ?_
  refine Keeps.bind (stateRecord_notBefore now _) fun _ => ?_
  dsimp only
  split
  · exact Keeps.pure _
  · exact Keeps.bind (commitInstance_notBefore now _) fun _ => Keeps.pure _

theorem finishExecution_notBefore (execution : ExecutionRecord) (finish : Finish) :
    Keeps (NotBefore now) (service.finishExecution execution finish) := by
  refine Keeps.bind (utcNow_notBefore now) fun _ => Keeps.bind (Keeps.modify fun _ h => h) fun _ => ?_
  refine Keeps.bind (uuid4_notBefore now) fun _ => Keeps.bind (utcNow_notBefore now) fun _ => ?_
  exact Keeps.modify fun _ h => h

theorem reject_notBefore {α : Type} (execution : ExecutionRecord) (finish : Finish)
    (raised : Raised) :
    Keeps (NotBefore now) (service.reject execution finish raised : Program α) :=
  Keeps.bind (finishExecution_notBefore now service _ _) fun _ => Keeps.throw _

theorem beginAction_notBefore (applicationId : String) (action : Action) :
    Keeps (NotBefore now) (service.beginAction applicationId action) := by
  refine Keeps.bind (application_notBefore now service _) fun _ => ?_
  refine Keeps.bind (require_notBefore now _ _) fun _ => ?_
  refine Keeps.bind (stateRecord_notBefore now _) fun _ => ?_
  refine Keeps.bind (require_notBefore now _ _) fun _ => ?_
  refine Keeps.bind (require_notBefore now _ _) fun _ => ?_
  refine Keeps.bind ?_ fun _ => Keeps.bind (commitInstance_notBefore now _) fun _ => Keeps.pure _
  refine Keeps.bind (uuid4_notBefore now) fun _ => Keeps.bind (utcNow_notBefore now) fun _ => ?_
  refine Keeps.bind (utcNow_notBefore now) fun _ => ?_
  exact Keeps.bind (Keeps.modify fun _ h => h) fun _ => Keeps.pure _

theorem requireTransition_notBefore (run : ActionRun) (current target : ApplicationStatus) :
    Keeps (NotBefore now) (service.requireTransition run current target) := by
  unfold LifecycleService.requireTransition
  split
  · exact Keeps.pure _
  · exact reject_notBefore now service _ _ _

theorem afterPreflight_notBefore (run : ActionRun) (preflight : Preflight) :
    Keeps (NotBefore now) (service.afterPreflight run preflight) := by
  refine Keeps.bind ?_ fun _ => Keeps.bind ?_ fun _ =>
    Keeps.bind (Keeps.modify fun _ h => h) fun _ => Keeps.pure _
  · unfold LifecycleService.portPreflight LifecycleService.checkPorts
    split
    · split
      · exact Keeps.throw _
      · exact reject_notBefore now service _ _ _
      · split
        · exact Keeps.pure _
        · exact reject_notBefore now service _ _ _
    · exact Keeps.pure _
  · unfold LifecycleService.enterTransitions
    have hrequire := requireTransition_notBefore now service run
    split
    · refine Keeps.bind (hrequire _ _) fun _ => Keeps.bind (transition_notBefore now _ _ _) fun _ => ?_
      exact Keeps.bind (hrequire _ _) fun _ => transition_notBefore now _ _ _
    · exact Keeps.bind (hrequire _ _) fun _ => transition_notBefore now _ _ _
    · exact Keeps.bind (hrequire _ _) fun _ => transition_notBefore now _ _ _

theorem afterCall_notBefore (run : ActionRun) (result : AdapterResult) :
    Keeps (NotBefore now) (service.afterCall run result) := by
  unfold LifecycleService.afterCall
  split
  · exact Keeps.pure _
  · refine Keeps.bind (transition_notBefore now _ _ _) fun _ => ?_
    exact Keeps.bind (finishExecution_notBefore now service _ _) fun _ => Keeps.pure _

theorem afterStatus_notBefore (run : ActionRun) (result : AdapterResult)
    (runtimeState : RuntimeState) :
    Keeps (NotBefore now) (service.afterStatus run result runtimeState) := by
  refine Keeps.bind (applyRuntimeState_notBefore now _ _) fun _ => ?_
  exact Keeps.bind (finishExecution_notBefore now service _ _) fun _ => Keeps.pure _

end Clock

/-! ### Effects on the row -/

def Registry.rowStatus (db : Registry) (applicationId : String) : Option ApplicationStatus :=
  (db.instances.lookup applicationId).map ApplicationInstanceRecord.status

def Registry.startedAt (db : Registry) (applicationId : String) : Option Time :=
  (db.instances.lookup applicationId).bind ApplicationInstanceRecord.startedAt

def Registry.stoppedAt (db : Registry) (applicationId : String) : Option Time :=
  (db.instances.lookup applicationId).bind ApplicationInstanceRecord.stoppedAt

/-- The metadata of the row; a row that is missing has none. -/
def Registry.rowMetadata (db : Registry) (applicationId : String) : List (String × String) :=
  ((db.instances.lookup applicationId).map ApplicationInstanceRecord.metadata).getD []

/-- The start and stop times that go with a status, by a clock that reads `now`. -/
structure Timed (status : ApplicationStatus) (now : Time) (started stopped started' stopped' :
    Option Time) : Prop where
  on_running : status = .running → started' = some (started.getD now) ∧ stopped' = none
  on_stopped : status = .stopped → started' = started ∧ stopped' = some now
  on_other : status ≠ .running → status ≠ .stopped → started' = started ∧ stopped' = stopped

/-- What a piece of a call does to the row of its application. -/
inductive Effect (applicationId : String) (db db' : Registry) : Piece → Prop
  | kept (row : db'.instances.lookup applicationId = db.instances.lookup applicationId) :
      Effect applicationId db db' .quiet
  /-- Into a status that has no time of its own. -/
  | moved (target : ApplicationStatus) (status : db'.rowStatus applicationId = some target)
      (not_running : target ≠ .running) (not_stopped : target ≠ .stopped)
      (started : db'.startedAt applicationId = db.startedAt applicationId)
      (stopped : db'.stoppedAt applicationId = db.stoppedAt applicationId)
      (metadata : db'.rowMetadata applicationId = db.rowMetadata applicationId) :
      Effect applicationId db db' .quiet
  | found (row : ApplicationInstanceRecord)
      (before : db.instances.lookup applicationId = some row)
      (after : db'.instances.lookup applicationId = some row) :
      Effect applicationId db db' .begun
  /-- A row that was missing is stored as it is made. -/
  | inserted (missing : db.instances.lookup applicationId = none)
      (status : db'.rowStatus applicationId = some .stopped)
      (started : db'.startedAt applicationId = none) (stopped : db'.stoppedAt applicationId = none)
      (metadata : db'.rowMetadata applicationId = []) :
      Effect applicationId db db' .begun
  | observed (runtimeState : RuntimeState)
      (status : db'.rowStatus applicationId = some runtimeState.status)
      (times : Timed runtimeState.status db.clock (db.startedAt applicationId)
        (db.stoppedAt applicationId) (db'.startedAt applicationId) (db'.stoppedAt applicationId))
      (metadata : db'.rowMetadata applicationId = runtimeState.metadata)
      (later : runtimeState.status = .stopped ∨
        runtimeState.status = .running ∧ db.startedAt applicationId = none → db.clock < db'.clock) :
      Effect applicationId db db' (.recorded runtimeState)

/-- The row with the times that go with its status. -/
def stamped (row : ApplicationInstanceRecord) (now : Time) : ApplicationInstanceRecord :=
  if row.status = .running then
    { row with startedAt := some (row.startedAt.getD now), stoppedAt := none }
  else if row.status = .stopped then { row with stoppedAt := some now }
  else row

theorem run_stampStatus (row : ApplicationInstanceRecord) (db : Registry) :
    ∃ clock, stampStatus row db = .ok (stamped row db.clock) { db with clock := clock } ∧
      db.clock ≤ clock ∧ (row.status = .stopped ∨ row.status = .running ∧ row.startedAt = none →
        db.clock < clock) := by
  unfold stampStatus stamped startedAtOrNow
  by_cases hrunning : row.status = .running
  · rw [if_pos hrunning, if_pos hrunning]
    cases hstarted : row.startedAt with
    | none => exact ⟨db.clock + 1, rfl, Nat.le_succ _, fun _ => Nat.lt_succ_self _⟩
    | some started =>
        refine ⟨db.clock, rfl, le_refl _, ?_⟩
        intro h
        rw [hrunning] at h
        simp at h
  · rw [if_neg hrunning, if_neg hrunning]
    by_cases hstopped : row.status = .stopped
    · rw [if_pos hstopped, if_pos hstopped]
      exact ⟨db.clock + 1, rfl, Nat.le_succ _, fun _ => Nat.lt_succ_self _⟩
    · rw [if_neg hstopped, if_neg hstopped]
      refine ⟨db.clock, rfl, le_refl _, ?_⟩
      intro h
      exact absurd h (by simp [hrunning, hstopped])

theorem stamped_timed (row : ApplicationInstanceRecord) (now : Time) :
    Timed row.status now row.startedAt row.stoppedAt (stamped row now).startedAt
      (stamped row now).stoppedAt := by
  unfold stamped
  constructor
  · intro h
    rw [if_pos h]
    exact ⟨rfl, rfl⟩
  · intro h
    rw [if_neg (by rw [h]; decide), if_pos h]
    exact ⟨rfl, rfl⟩
  · intro hrunning hstopped
    rw [if_neg hrunning, if_neg hstopped]
    exact ⟨rfl, rfl⟩

/-! ### The effect of each piece -/

theorem stampStatus_row (row : ApplicationInstanceRecord) (db : Registry) :
    Triple (fun db' => db' = db) (stampStatus row)
      (fun row' db' => row' = stamped row db.clock ∧ SameRecords db db' ∧
        (row.status = .stopped ∨ row.status = .running ∧ row.startedAt = none →
          db.clock < db'.clock)) (fun _ _ => False) := by
  intro db' hdb'
  obtain ⟨clock, hrun, -, hlater⟩ := run_stampStatus row db
  rw [hdb', hrun]
  exact ⟨rfl, ⟨rfl, rfl, rfl, rfl, rfl⟩, hlater⟩

/-- The object has moved to another status, its times and its metadata as they were. -/
structure Shifted (state : InstanceObject) (db : Registry) (state' : InstanceObject)
    (db' : Registry) : Prop where
  attached : Attached db' state'
  key : state'.applicationId = state.applicationId
  startedAt : state'.now.startedAt = state.now.startedAt
  stoppedAt : state'.now.stoppedAt = state.now.stoppedAt
  metadata : state'.now.metadata = state.now.metadata

theorem Shifted.trans {state₀ state₁ state₂ : InstanceObject} {db₀ db₁ db₂ : Registry}
    (h : Shifted state₀ db₀ state₁ db₁) (h' : Shifted state₁ db₁ state₂ db₂) :
    Shifted state₀ db₀ state₂ db₂ where
  attached := h'.attached
  key := h'.key.trans h.key
  startedAt := h'.startedAt.trans h.startedAt
  stoppedAt := h'.stoppedAt.trans h.stoppedAt
  metadata := h'.metadata.trans h.metadata

theorem transition_shifted {db : Registry} {state : InstanceObject} (h : Attached db state)
    {target : ApplicationStatus} (hrunning : target ≠ .running) (hstopped : target ≠ .stopped)
    (errorMessage : Option String) :
    Triple (fun db' => db' = db) (transition state target errorMessage)
      (fun state' db' => Shifted state db state' db' ∧ state'.now.status = target)
      (fun _ _ => False) := by
  refine Triple.bind (stampStatus_row _ db) fun row => Triple.forEach fun db₁ hrow => ?_
  obtain ⟨hrow, hsame, -⟩ := hrow
  rw [stamped, if_neg hrunning, if_neg hstopped] at hrow
  refine (commitInstance_spec (h.committable.assign hsame (by rw [hrow]) (by rw [hrow]))).conseq
    (fun _ h => h) (fun state' db' hc => ?_) (fun _ _ h => h)
  refine ⟨⟨hc.attached, hc.applicationId, ?_, ?_, ?_⟩, ?_⟩ <;> rw [hc.now, hrow]

/-- The effect on the row of an object that has shifted. -/
theorem Shifted.effect {state state' : InstanceObject} {db db' : Registry}
    (h : Shifted state db state' db') (hattached : Attached db state)
    (hrunning : state'.now.status ≠ .running) (hstopped : state'.now.status ≠ .stopped) :
    Effect state.applicationId db db' .quiet := by
  have hbefore := hattached.stored
  have hafter := h.attached.stored
  rw [h.key] at hafter
  refine Effect.moved state'.now.status ?_ hrunning hstopped ?_ ?_ ?_
  · rw [Registry.rowStatus, hafter]
    rfl
  · rw [Registry.startedAt, Registry.startedAt, hafter, hbefore]
    exact h.startedAt
  · rw [Registry.stoppedAt, Registry.stoppedAt, hafter, hbefore]
    exact h.stoppedAt
  · rw [Registry.rowMetadata, Registry.rowMetadata, hafter, hbefore]
    exact h.metadata

/-- The object holds what the session finds: the stored row, or a new one to be inserted. -/
structure Holds (db : Registry) (state : InstanceObject) : Prop where
  committable : Committable db state
  startedAt : state.now.startedAt = db.startedAt state.applicationId
  stoppedAt : state.now.stoppedAt = db.stoppedAt state.applicationId

theorem Attached.holds {db : Registry} {state : InstanceObject} (h : Attached db state) :
    Holds db state := by
  refine ⟨h.committable, ?_, ?_⟩
  · rw [Registry.startedAt, h.stored]
    rfl
  · rw [Registry.stoppedAt, h.stored]
    rfl

/-- A fact about the registry that holds at both exits. -/
theorem final_of_triple {α : Type} {m : Program α} {db : Registry} {P : Registry → Prop}
    (h : Triple (fun db' => db' = db) m (fun _ => P) fun _ => P) : P (finalState (m db)) :=
  Triple.exits (R := fun result => P (finalState result)) h

/-- What `_apply_runtime_state` assigns before the times. -/
def observedRow (row : ApplicationInstanceRecord) (runtimeState : RuntimeState) :
    ApplicationInstanceRecord :=
  { row with
    status := runtimeState.status
    runtimeIdentifier := some runtimeState.runtimeIdentifier
    metadata := runtimeState.metadata
    errorMessage := runtimeState.errorMessage }

theorem applyRuntimeState_eq (state : InstanceObject) (runtimeState : RuntimeState) :
    applyRuntimeState state runtimeState = do
      let now ← stampStatus (observedRow state.now runtimeState)
      let state ← commitInstance { state with now }
      let state ← refreshInstance state
      return stateResponse state.applicationId state.now := rfl

theorem stamped_frame (row : ApplicationInstanceRecord) (now : Time) :
    Stamped row (stamped row now) := by
  unfold stamped
  split_ifs <;> exact ⟨rfl, rfl, rfl, rfl, rfl, rfl⟩

/-- A time that is read lies before the end of the piece. -/
theorem applyRuntimeState_later (state : InstanceObject) (runtimeState : RuntimeState)
    (db : Registry) (h : runtimeState.status = .stopped ∨
      runtimeState.status = .running ∧ state.now.startedAt = none) :
    db.clock < (finalState (applyRuntimeState state runtimeState db)).clock := by
  rw [applyRuntimeState_eq]
  refine @final_of_triple _ _ _ (fun db' => db.clock < db'.clock) ?_
  refine Triple.bind ((stampStatus_row _ db).conseq (fun _ h => h)
    (fun _ db' hrow => Nat.succ_le_of_lt (hrow.2.2 h)) (fun _ _ h => h.elim)) fun row => ?_
  refine Keeps.bind (commitInstance_notBefore _ _) fun state' => ?_
  exact Keeps.bind (refreshInstance_notBefore _ _) fun state' => Keeps.pure _

/-- The row of an observation that was recorded when the clock read `now`. -/
def RecordedRow (state : InstanceObject) (runtimeState : RuntimeState) (now : Time) (db : Registry) :
    Prop :=
  ∃ row, db.instances.lookup state.applicationId = some row ∧
    Stamped (observedRow state.now runtimeState) row ∧
    row.startedAt = (stamped (observedRow state.now runtimeState) now).startedAt ∧
    row.stoppedAt = (stamped (observedRow state.now runtimeState) now).stoppedAt

theorem applyRuntimeState_row {db : Registry} {state : InstanceObject} (h : Committable db state)
    (runtimeState : RuntimeState) :
    RecordedRow state runtimeState db.clock (finalState (applyRuntimeState state runtimeState db)) := by
  rw [applyRuntimeState_eq]
  refine final_of_triple ?_
  refine Triple.bind ((stampStatus_row _ db).conseq (fun _ h => h) (fun _ _ h => h)
    (fun _ _ h => h.elim)) fun row => Triple.forEach fun db₁ hrow => ?_
  obtain ⟨rfl, hsame, -⟩ := hrow
  have hframe := stamped_frame (observedRow state.now runtimeState) db.clock
  refine Triple.bind ((commitInstance_spec (h.assign hsame hframe.id hframe.createdAt)).conseq
    (fun _ h => h) (fun _ _ h => h) (fun _ _ h => h.elim)) fun state' => Triple.forEach fun db₂ hc => ?_
  refine Triple.bind ((refreshInstance_spec hc.attached).conseq (fun _ h => h) (fun _ _ h => h)
    (fun _ _ h => h.elim)) fun state'' => Triple.pure fun db₃ hr => ?_
  obtain ⟨-, rfl⟩ := hr
  have hstored := hc.attached.stored
  rw [hc.applicationId] at hstored
  refine ⟨state'.now, hstored, ?_, ?_, ?_⟩
  · rw [hc.now]
    exact ⟨hframe.id, hframe.createdAt, hframe.status, hframe.errorMessage,
      hframe.runtimeIdentifier, hframe.metadata⟩
  · rw [hc.now]
  · rw [hc.now]

theorem applyRuntimeState_effect {db : Registry} {state : InstanceObject} (h : Holds db state)
    (runtimeState : RuntimeState) :
    Effect state.applicationId db (finalState (applyRuntimeState state runtimeState db))
      (.recorded runtimeState) := by
  obtain ⟨row, hstored, hframe, hstarted, hstopped⟩ :=
    applyRuntimeState_row h.committable runtimeState
  have htimes := stamped_timed (observedRow state.now runtimeState) db.clock
  rw [← hstarted, ← hstopped] at htimes
  refine Effect.observed runtimeState ?_ ?_ ?_ ?_
  · rw [Registry.rowStatus, hstored]
    exact congrArg some hframe.status
  · rw [Registry.startedAt, Registry.stoppedAt, Registry.startedAt, Registry.stoppedAt, hstored]
    rw [← Registry.startedAt, ← Registry.stoppedAt, ← h.startedAt, ← h.stoppedAt]
    exact htimes
  · rw [Registry.rowMetadata, hstored]
    exact hframe.metadata
  · rw [← h.startedAt]
    exact applyRuntimeState_later state runtimeState db

/-- The object has the times and the metadata of the stored row, of a missing row none. -/
structure Made (db : Registry) (applicationId : String) (state : InstanceObject) : Prop where
  startedAt : state.now.startedAt = db.startedAt applicationId
  stoppedAt : state.now.stoppedAt = db.stoppedAt applicationId
  metadata : state.now.metadata = db.rowMetadata applicationId

theorem stateRecord_made (applicationId : String) (db : Registry) :
    Triple (fun db' => db' = db) (stateRecord applicationId)
      (fun state _ => Made db applicationId state) (fun _ _ => False) := by
  intro db' hdb'
  rw [hdb']
  cases hrow : db.instances.lookup applicationId with
  | some row =>
      have hrun : stateRecord applicationId db =
          .ok { applicationId, loaded := some row, now := row } db := by
        simp only [stateRecord, run_bind, run_get, hrow, run_pure]
      rw [hrun]
      constructor
      · rw [Registry.startedAt, hrow]
        rfl
      · rw [Registry.stoppedAt, hrow]
        rfl
      · rw [Registry.rowMetadata, hrow]
        rfl
  | none =>
      have hrun : stateRecord applicationId db = .ok
          { applicationId, loaded := none
            now := { id := db.unusedUuid, status := .stopped, createdAt := db.clock
                     updatedAt := db.clock } }
          { db with clock := db.clock + 1, lastUuid := db.unusedUuid } := by
        simp only [stateRecord, run_bind, run_get, hrow, run_pure, run_uuid4, run_utcNow]
      rw [hrun]
      constructor
      · rw [Registry.startedAt, hrow]
        rfl
      · rw [Registry.stoppedAt, hrow]
        rfl
      · rw [Registry.rowMetadata, hrow]
        rfl

/-- A commit changes no more than `updated_at` in the object. -/
theorem commitInstance_made {db : Registry} {applicationId : String} {state : InstanceObject}
    (h : Made db applicationId state) :
    Triple (fun _ => True) (commitInstance state) (fun state' _ => Made db applicationId state')
      (fun _ _ => True) := by
  unfold commitInstance insertInstance updateInstance
  split
  · refine Triple.get_bind fun db' _ => Triple.bind (R := fun _ _ => True)
      (require_spec (fun _ _ _ => trivial) (fun _ _ _ => trivial)) fun _ => ?_
    refine Triple.bind (R := fun _ _ => True) (Triple.modify fun _ _ => trivial) fun _ => ?_
    exact Triple.pure fun _ _ => ⟨h.startedAt, h.stoppedAt, h.metadata⟩
  · split
    · exact Triple.pure fun _ _ => h
    · refine Triple.bind (R := fun _ _ => True) (fun _ _ => trivial) fun updatedAt => ?_
      refine Triple.get_bind fun db' _ => ?_
      split
      · exact Triple.throw fun _ _ => trivial
      · refine Triple.bind (R := fun _ _ => True)
          (require_spec (fun _ _ _ => trivial) (fun _ _ _ => trivial)) fun _ => ?_
        refine Triple.bind (R := fun _ _ => True) (Triple.modify fun _ _ => trivial) fun _ => ?_
        exact Triple.pure fun _ _ => ⟨h.startedAt, h.stoppedAt, h.metadata⟩

/-- A program of which nothing is asked. -/
theorem triple_true {α : Type} (m : Program α) (P : Registry → Prop) :
    Triple P m (fun _ _ => True) (fun _ _ => True) := by
  intro db _
  cases m db with
  | ok a db' => trivial
  | error e db' => trivial

theorem beginAction_made (service : LifecycleService) (applicationId : String) (action : Action)
    (db₀ : Registry) :
    Triple (fun db => db = db₀) (service.beginAction applicationId action)
      (fun run _ => Made db₀ applicationId run.state) (fun _ _ => True) := by
  refine Triple.bind ((application_spec service applicationId db₀).conseq (fun _ h => h)
    (fun _ _ h => h.2) (fun _ _ _ => trivial)) fun found => ?_
  refine Triple.bind (R := fun _ db => db = db₀)
    (require_spec (fun _ _ h => h) (fun _ _ _ => trivial)) fun _ => ?_
  refine Triple.bind ((stateRecord_made applicationId db₀).conseq (fun _ h => h) (fun _ _ h => h)
    (fun _ _ h => h.elim)) fun state => ?_
  refine Triple.bind (R := fun _ _ => Made db₀ applicationId state)
    (require_spec (fun _ _ h => h) (fun _ _ _ => trivial)) fun _ => ?_
  refine Triple.bind (R := fun _ _ => Made db₀ applicationId state)
    (require_spec (fun _ _ h => h) (fun _ _ _ => trivial)) fun _ => Triple.forEach fun db hmade => ?_
  refine Triple.bind (triple_true _ _) fun execution => ?_
  exact Triple.bind (commitInstance_made hmade) fun state' => Triple.pure fun _ h => h

theorem Effect.of_same {applicationId : String} {db db' : Registry}
    (h : db'.instances = db.instances) : Effect applicationId db db' .quiet :=
  Effect.kept (by rw [h])

/-- What `status` has in hand at its lock. -/
inductive LoadedRow (applicationId : String) (db db' : Registry) :
    ApplicationStateResponse ⊕ (ApplicationManifest × InstanceObject) → Prop
  | disabled {response : ApplicationStateResponse} (h : Effect applicationId db db' .quiet) :
      LoadedRow applicationId db db' (.inl response)
  | found {manifest : ApplicationManifest} {state : InstanceObject}
      (same : db'.instances = db.instances) (key : state.applicationId = applicationId)
      (holds : Holds db' state) : LoadedRow applicationId db db' (.inr (manifest, state))

theorem loadStatus_row (service : LifecycleService) (applicationId : String) (db : Registry) :
    Triple (fun db' => db' = db) (service.loadStatus applicationId)
      (fun found db' => LoadedRow applicationId db db' found) (fun _ => SameRecords db) := by
  refine Triple.bind ((application_spec service applicationId db).conseq (fun _ h => h)
    (fun _ _ h => h) (fun _ _ h => h.1 ▸ SameRecords.refl db))
    fun found => Triple.forEach fun db' hfound => ?_
  obtain ⟨record, manifest⟩ := found
  obtain ⟨hregistered, hdb'⟩ := hfound
  rw [hdb']
  refine Triple.bind (((stateRecord_spec applicationId db).and
    (stateRecord_made applicationId db)).conseq (fun _ h => ⟨h, h⟩) (fun _ _ h => h)
    (fun _ _ h => h.1.elim)) fun state => Triple.forEach fun db₁ h => ?_
  obtain ⟨⟨hstate, hsame⟩, hmade⟩ := h
  have happlication : (db₁.applications.lookup applicationId).isSome = true := by
    rw [hsame.applications, hregistered.stored]
    rfl
  have hcommittable := hstate.committable hsame.instances happlication
  dsimp only
  split
  · refine Triple.pure fun db' hdb' => ?_
    rw [hdb']
    refine LoadedRow.found hsame.instances hstate.key ⟨hcommittable, ?_, ?_⟩
    · rw [hmade.startedAt, Registry.startedAt, Registry.startedAt, hsame.instances, hstate.key]
    · rw [hmade.stoppedAt, Registry.stoppedAt, Registry.stoppedAt, hsame.instances, hstate.key]
  · have hassigned : Committable db₁ { state with now.status := .disabled } :=
      hcommittable.assign (SameRecords.refl db₁) rfl rfl
    refine Triple.bind ((commitInstance_spec hassigned).conseq (fun _ h => h)
      (fun _ _ h => h) (fun _ _ h => h.elim)) fun state' => Triple.pure fun db₂ hc => ?_
    have hstored : db₂.instances.lookup applicationId = some state'.now := by
      rw [← hstate.key, ← hc.attached.stored, hc.applicationId]
    refine LoadedRow.disabled (Effect.moved .disabled ?_ (by decide) (by decide) ?_ ?_ ?_)
    · rw [Registry.rowStatus, hstored, hc.now]
      rfl
    · rw [← hmade.startedAt, Registry.startedAt, hstored, hc.now]
      rfl
    · rw [← hmade.stoppedAt, Registry.stoppedAt, hstored, hc.now]
      rfl
    · rw [← hmade.metadata, Registry.rowMetadata, hstored, hc.now]
      rfl

/-- What a begun action leaves of the row, which it holds from then on. -/
structure BegunRow (db₀ : Registry) (applicationId : String) (run : ActionRun) (db : Registry) :
    Prop where
  effect : Effect applicationId db₀ db .begun
  key : run.state.applicationId = applicationId
  attached : Attached db run.state

theorem beginAction_row (service : LifecycleService) (applicationId : String) (action : Action)
    (db₀ : Registry) :
    Triple (fun db => db = db₀) (service.beginAction applicationId action)
      (fun run db => BegunRow db₀ applicationId run db ∧
        Begun service db₀ applicationId action run db) (fun _ db => SameRecords db₀ db) := by
  refine ((beginAction_spec service applicationId action db₀).and
    (beginAction_made service applicationId action db₀)).conseq (fun _ h => ⟨h, h⟩)
    (fun run db h => ⟨?_, h.1⟩) (fun _ _ h => h.1.1)
  obtain ⟨hbegun, hmade⟩ := h
  obtain ⟨happ, -⟩ := hbegun.name
  have hkey : run.state.applicationId = applicationId := hbegun.started.key.trans happ
  have hattached := hbegun.started.attached
  have hstored := hattached.stored
  rw [hkey] at hstored
  refine ⟨?_, hkey, hattached⟩
  cases hrow : db₀.instances.lookup applicationId with
  | some row =>
      refine Effect.found row hrow ?_
      rw [hbegun.kept row (happ ▸ hrow), hrow]
  | none =>
      refine Effect.inserted hrow ?_ ?_ ?_ ?_
      · rw [Registry.rowStatus, hstored, Option.map_some, hbegun.status, happ,
          Registry.persistedStatus, hrow]
        rfl
      · rw [Registry.startedAt, hstored, Option.bind_some, hmade.startedAt, Registry.startedAt, hrow]
        rfl
      · rw [Registry.stoppedAt, hstored, Option.bind_some, hmade.stoppedAt, Registry.stoppedAt, hrow]
        rfl
      · rw [Registry.rowMetadata, hstored, Option.map_some, Option.getD_some, hmade.metadata,
          Registry.rowMetadata, hrow]
        rfl

/-- An object that has moved into a status without times. -/
def Parked (state : InstanceObject) (db : Registry) (state' : InstanceObject) (db' : Registry) :
    Prop :=
  Shifted state db state' db' ∧ state'.now.status ≠ .running ∧ state'.now.status ≠ .stopped

theorem transition_parked {db : Registry} {state : InstanceObject} (h : Attached db state)
    {target : ApplicationStatus} (hrunning : target ≠ .running) (hstopped : target ≠ .stopped)
    (errorMessage : Option String) {E : Raised → Registry → Prop} :
    Triple (fun db' => db' = db) (transition state target errorMessage) (Parked state db) E :=
  (transition_shifted h hrunning hstopped errorMessage).conseq (fun _ h => h)
    (fun _ _ h => ⟨h.1, h.2 ▸ hrunning, h.2 ▸ hstopped⟩) (fun _ _ h => h.elim)

theorem enterTransitions_parked (service : LifecycleService) {db₀ db : Registry} {run : ActionRun}
    (h : Started db₀ run db) :
    Triple (fun db' => db' = db) (service.enterTransitions run) (Parked run.state db)
      (fun _ _ => True) := by
  have hrequire (state : InstanceObject) (db : Registry) (target : ApplicationStatus) :
      Triple (fun db' => db' = db) (service.requireTransition run state.now.status target)
        (fun _ db' => db' = db) (fun _ _ => True) := by
    unfold LifecycleService.requireTransition
    split
    · exact Triple.pure fun _ h => h
    · exact Triple.bind (triple_true _ _) fun _ => Triple.throw fun _ _ => trivial
  unfold LifecycleService.enterTransitions
  cases run.action with
  | stop =>
      refine Triple.bind (hrequire _ db _) fun _ => ?_
      exact transition_parked h.attached (by decide) (by decide) none
  | restart =>
      refine Triple.bind (hrequire _ db _) fun _ => ?_
      exact transition_parked h.attached (by decide) (by decide) none
  | start =>
      refine Triple.bind (hrequire _ db _) fun _ => ?_
      refine Triple.bind (transition_parked h.attached (by decide) (by decide) none)
        fun state => Triple.forEach fun db₁ hchecking => ?_
      obtain ⟨hchecking, -, -⟩ := hchecking
      refine Triple.bind (hrequire _ db₁ _) fun _ => ?_
      refine (transition_parked hchecking.attached (by decide) (by decide) none).conseq
        (fun _ h => h) (fun _ _ h => ⟨hchecking.trans h.1, h.2⟩) (fun _ _ h => h)

theorem Parked.effect {state state' : InstanceObject} {db db' : Registry}
    (h : Parked state db state' db') (hattached : Attached db state) :
    Effect state.applicationId db db' .quiet := h.1.effect hattached h.2.1 h.2.2

/-- Other rows may be written, and the clock read, after a piece. -/
theorem Effect.followed {applicationId : String} {db db' db'' : Registry} {piece : Piece}
    (h : Effect applicationId db db' piece) (hrows : db''.instances = db'.instances)
    (hclock : db'.clock ≤ db''.clock) : Effect applicationId db db'' piece := by
  have hstatus : db''.rowStatus applicationId = db'.rowStatus applicationId := by
    rw [Registry.rowStatus, Registry.rowStatus, hrows]
  have hstarted : db''.startedAt applicationId = db'.startedAt applicationId := by
    rw [Registry.startedAt, Registry.startedAt, hrows]
  have hstopped : db''.stoppedAt applicationId = db'.stoppedAt applicationId := by
    rw [Registry.stoppedAt, Registry.stoppedAt, hrows]
  have hmetadata : db''.rowMetadata applicationId = db'.rowMetadata applicationId := by
    rw [Registry.rowMetadata, Registry.rowMetadata, hrows]
  cases h with
  | kept row => exact Effect.kept (by rw [hrows, row])
  | moved target status not_running not_stopped started stopped metadata =>
      exact Effect.moved target (hstatus.trans status) not_running not_stopped
        (hstarted.trans started) (hstopped.trans stopped) (hmetadata.trans metadata)
  | found row before after => exact Effect.found row before (by rw [hrows, after])
  | inserted missing status started stopped metadata =>
      exact Effect.inserted missing (hstatus.trans status) (hstarted.trans started)
        (hstopped.trans stopped) (hmetadata.trans metadata)
  | observed runtimeState status times metadata later =>
      refine Effect.observed runtimeState (hstatus.trans status) ?_ (hmetadata.trans metadata)
        fun h => (later h).trans_le hclock
      rw [hstarted, hstopped]
      exact times

theorem Effect.keeps_tick {applicationId : String} {db : Registry} {piece : Piece} :
    Keeps (fun db' => Effect applicationId db db' piece) utcNow :=
  Keeps.modifyGet fun _ h => h.followed rfl (Nat.le_succ _)

theorem finishExecution_keeps (service : LifecycleService) {applicationId : String}
    {db : Registry} {piece : Piece} (execution : ExecutionRecord) (finish : Finish) :
    Keeps (fun db' => Effect applicationId db db' piece)
      (service.finishExecution execution finish) := by
  refine Keeps.bind Effect.keeps_tick fun _ => ?_
  refine Keeps.bind (Keeps.modify fun _ h => h.followed rfl (le_refl _)) fun _ => ?_
  refine Keeps.bind (Keeps.modifyGet fun _ h => h.followed rfl (le_refl _)) fun _ => ?_
  refine Keeps.bind Effect.keeps_tick fun _ => ?_
  exact Keeps.modify fun _ h => h.followed rfl (le_refl _)

/-- What the transitions before the adapter call leave of the row. -/
structure EnteredRow (run : ActionRun) (db : Registry) (run' : ActionRun) (db' : Registry) :
    Prop where
  effect : Effect run.state.applicationId db db' .quiet
  key : run'.state.applicationId = run.state.applicationId
  attached : Attached db' run'.state

theorem afterPreflight_row (service : LifecycleService) {db₀ db : Registry}
    {applicationId : String} {action : Action} {run : ActionRun} (preflight : Preflight)
    (h : Begun service db₀ applicationId action run db) :
    Triple (fun db' => db' = db) (service.afterPreflight run preflight)
      (fun run' db' => EnteredRow run db run' db') (fun _ db' => db'.instances = db.instances) := by
  have hraised : Triple (fun db' => db' = db) (service.afterPreflight run preflight)
      (fun _ _ => True) (fun _ db' => db'.instances = db.instances) := by
    refine (afterPreflight_spec service preflight h).conseq (fun _ h => h) (fun _ _ _ => trivial)
      fun raised db' hturned => ?_
    cases hturned with
    | external => rfl
    | rejected _ _ h => exact h.instances
  have hentered : Triple (fun db' => db' = db) (service.afterPreflight run preflight)
      (fun run' db' => EnteredRow run db run' db') (fun _ _ => True) := by
    refine Triple.bind ((portPreflight_spec service h.started preflight).conseq (fun _ h => h)
      (fun _ _ h => h.2) (fun _ _ _ => trivial)) fun _ => ?_
    refine Triple.bind (enterTransitions_parked service h.started)
      fun state => Triple.forEach fun db₁ hparked => ?_
    refine Triple.bind (R := fun _ db' => db'.instances = db₁.instances ∧ db₁.clock ≤ db'.clock)
      (Triple.modify fun _ hdb => ?_) fun _ => Triple.pure fun db' hdb => ?_
    · rw [hdb]
      exact ⟨rfl, le_refl _⟩
    · exact ⟨(hparked.effect h.started.attached).followed hdb.1 hdb.2, hparked.1.key,
        hparked.1.attached.of_same hdb.1⟩
  exact (hraised.and hentered).conseq (fun _ h => ⟨h, h⟩) (fun _ _ h => h.2) (fun _ _ h => h.1)

theorem afterCall_row (service : LifecycleService) {db : Registry} {run : ActionRun}
    (h : Attached db run.state) (result : AdapterResult) :
    Triple (fun db' => db' = db) (service.afterCall run result)
      (fun response db' => Effect run.state.applicationId db db' .quiet ∧
        (response = none → db' = db)) (fun _ _ => False) := by
  unfold LifecycleService.afterCall
  split
  · refine Triple.pure fun db' hdb' => ?_
    rw [hdb']
    exact ⟨Effect.of_same rfl, fun _ => rfl⟩
  · refine Triple.bind (transition_parked h (by decide) (by decide) _)
      fun state => Triple.forEach fun db₁ hparked => ?_
    have hfinish : Triple (fun db' => db' = db₁)
        (service.finishExecution run.execution (failedFinish result))
        (fun _ db' => Effect run.state.applicationId db db' .quiet) (fun _ _ => False) := by
      intro db' hdb'
      have hend := finishExecution_keeps service run.execution (failedFinish result) db'
        (hdb' ▸ hparked.effect h)
      exact hend
    refine Triple.bind hfinish fun _ => Triple.pure fun db' hdb' => ⟨hdb', ?_⟩
    intro hnone
    cases hnone

theorem afterStatus_row (service : LifecycleService) {db : Registry} {run : ActionRun}
    (h : Attached db run.state) (result : AdapterResult) (runtimeState : RuntimeState) :
    Effect run.state.applicationId db
      (finalState (service.afterStatus run result runtimeState db)) (.recorded runtimeState) := by
  refine @final_of_triple _ _ db
    (fun db' => Effect run.state.applicationId db db' (.recorded runtimeState)) ?_
  refine Triple.bind (R := fun _ db' =>
    Effect run.state.applicationId db db' (.recorded runtimeState)) ?_ fun response => ?_
  · intro db' hdb'
    rw [hdb']
    have heffect := applyRuntimeState_effect h.holds runtimeState
    cases hrun : applyRuntimeState run.state runtimeState db with
    | ok response db' => rwa [hrun] at heffect
    | error raised db' => rwa [hrun] at heffect
  · exact Keeps.bind (finishExecution_keeps service _ _) fun _ => Keeps.pure _

/-! ### The pieces of a call -/

/-- What a piece does to the row and to the clock. -/
def PieceStep (applicationId : String) (db : Registry) (piece : Piece) (db' : Registry) : Prop :=
  Effect applicationId db db' piece ∧ db.clock ≤ db'.clock

theorem statusStages_steps (service : LifecycleService) (applicationId : String)
    (surroundings : Surroundings) (db : Registry) :
    Steps (PieceStep applicationId) db (statusStages service applicationId surroundings db) := by
  have hrow := loadStatus_row service applicationId db db rfl
  have hclock := loadStatus_notBefore db.clock service applicationId db (le_refl _)
  unfold statusStages
  cases hload : service.loadStatus applicationId db with
  | error raised db' =>
      rw [hload] at hrow hclock
      exact ⟨⟨Effect.of_same hrow.instances, hclock⟩, trivial⟩
  | ok found db' =>
      rw [hload] at hrow hclock
      cases hrow with
      | disabled heffect => exact ⟨⟨heffect, hclock⟩, trivial⟩
      | @found manifest state same key holds =>
          have hfirst : Effect applicationId db db' .quiet ∧ db.clock ≤ db'.clock :=
            ⟨Effect.of_same same, hclock⟩
          cases surroundings.observation with
          | raised exception => exact ⟨hfirst, trivial⟩
          | returned runtimeState =>
              refine ⟨hfirst, ⟨?_, ?_⟩, trivial⟩
              · rw [← key]
                exact applyRuntimeState_effect holds runtimeState
              · exact final_of_triple (P := fun last => db'.clock ≤ last.clock)
                  ((applyRuntimeState_notBefore db'.clock state runtimeState).conseq
                    (fun _ h => h ▸ le_refl _) (fun _ _ h => h) (fun _ _ h => h))

theorem actionStages_steps (service : LifecycleService) (applicationId : String)
    (surroundings : Surroundings) (action : Action) (db : Registry) :
    Steps (PieceStep applicationId) db (actionStages service applicationId surroundings action db) := by
  have hbegun := beginAction_row service applicationId action db db rfl
  have hbegan := beginAction_notBefore db.clock service applicationId action db (le_refl _)
  unfold actionStages
  cases hbegin : service.beginAction applicationId action db with
  | error raised db' =>
      rw [hbegin] at hbegun hbegan
      exact ⟨⟨Effect.of_same hbegun.instances, hbegan⟩, trivial⟩
  | ok run db₁ =>
      rw [hbegin] at hbegun hbegan
      obtain ⟨hrow, hrun⟩ := hbegun
      refine ⟨⟨hrow.effect, hbegan⟩, ?_⟩
      have hentered := afterPreflight_row service surroundings.preflight hrun db₁ rfl
      have henter := afterPreflight_notBefore db₁.clock service run surroundings.preflight db₁
        (le_refl _)
      cases hpreflight : service.afterPreflight run surroundings.preflight db₁ with
      | error raised db' =>
          rw [hpreflight] at hentered henter
          exact ⟨⟨Effect.of_same hentered, henter⟩, trivial⟩
      | ok run' db₂ =>
          rw [hpreflight] at hentered henter
          have hkey : run'.state.applicationId = applicationId := hentered.key.trans hrow.key
          have heffect := hentered.effect
          rw [hrow.key] at heffect
          refine ⟨⟨heffect, henter⟩, ?_⟩
          cases surroundings.call with
          | raised exception => exact trivial
          | returned result =>
              dsimp only
              have hcall := afterCall_row service hentered.attached result db₂ rfl
              have hcalled := afterCall_notBefore db₂.clock service run' result db₂ (le_refl _)
              cases hafter : service.afterCall run' result db₂ with
              | error raised db' =>
                  rw [hafter] at hcall
                  exact hcall.elim
              | ok response db₃ =>
                  rw [hafter] at hcall hcalled
                  obtain ⟨hthird, hnone⟩ := hcall
                  rw [hkey] at hthird
                  cases response with
                  | some response => exact ⟨⟨hthird, hcalled⟩, trivial⟩
                  | none =>
                      obtain rfl : db₃ = db₂ := hnone rfl
                      cases surroundings.observation with
                      | raised exception => exact ⟨⟨hthird, hcalled⟩, trivial⟩
                      | returned runtimeState =>
                          refine ⟨⟨hthird, hcalled⟩, ⟨?_, ?_⟩, trivial⟩
                          · rw [← hkey]
                            exact afterStatus_row service hentered.attached result runtimeState
                          · exact final_of_triple (P := fun last => db₃.clock ≤ last.clock)
                              ((afterStatus_notBefore db₃.clock service run' result
                                runtimeState).conseq (fun _ h => h ▸ le_refl _) (fun _ _ h => h)
                                (fun _ _ h => h))

/-- Every piece of a call has its effect on the row. -/
theorem Call.stages_steps (call : Call) (service : LifecycleService) (applicationId : String)
    (db : Registry) :
    Steps (PieceStep applicationId) db (call.stages service applicationId db) := by
  cases call with
  | status surroundings => exact statusStages_steps service applicationId surroundings db
  | action name surroundings =>
      simp only [Call.stages]
      cases Action.ofName name with
      | none => exact ⟨⟨Effect.of_same rfl, le_refl _⟩, trivial⟩
      | some known => exact actionStages_steps service applicationId surroundings known db

/-! ### Runs of calls -/

/-- The pieces of a run of calls, each call to the service as it is configured then. -/
def runStages (applicationId : String) :
    Registry → List (LifecycleService × Call) → List (Piece × Registry)
  | _, [] => []
  | db, (service, call) :: rest =>
      call.stages service applicationId db ++
        runStages applicationId (call.perform service applicationId db) rest

theorem runStages_steps (applicationId : String) (db : Registry)
    (calls : List (LifecycleService × Call)) :
    Steps (PieceStep applicationId) db (runStages applicationId db calls) := by
  induction calls generalizing db with
  | nil => exact trivial
  | cons first rest ih =>
      obtain ⟨service, call⟩ := first
      refine (call.stages_steps service applicationId db).append ?_
      rw [call.stages_end service applicationId db]
      exact ih (call.perform service applicationId db)

end MachineDeck.Lifecycle

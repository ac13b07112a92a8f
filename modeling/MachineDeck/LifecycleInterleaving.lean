import MachineDeck.LifecycleRuns

/-!
# Requests for one application, interleaved

The requests for one application run concurrently, each with its own session.  They share the
database and the application's `asyncio.Lock`, and other requests run only while one awaits.

* `Phase`, `System`, `Event`, `System.step` — the requests, the lock with its queue, and what can
  happen next;
* `StatusReturn`, `System.returns` — what each `status` that returned has queried, answered and
  left behind;
* `Current` — an answer reaches a `status` whose loaded manifest is still the stored one and
  whose loaded status, when it is the one reported, is still the persisted one;
* `report_faithful_iff`, `status_serialised` — a `status` is faithful exactly when it is current.

`action`, `update` and `delete` load their rows when they have the lock; `status` loads them
before it waits.
-/

namespace MachineDeck.Lifecycle

open ProgramTriple GuardedRuns

/-! ### Requests under way -/

/-- What a request does once it has the lock. -/
inductive Locked where
  | status (manifest : ApplicationManifest) (state : InstanceObject)
  | action (action : Action)
  | update (manifest : ApplicationManifest)
  | delete

/-- Where a request is.  In the phases from `querying` on it holds the lock. -/
inductive Phase where
  | absent
  | waiting (locked : Locked)
  | querying (manifest : ApplicationManifest) (state : InstanceObject)
  | checking (run : ActionRun)
  | calling (run : ActionRun)
  | confirming (run : ActionRun) (result : AdapterResult)
  | done

/-- A `status` of an enabled application that has returned: the manifest whose runtime it queried
and the one stored at that moment, the status reported by the query, answered, and persisted. -/
structure StatusReturn where
  queried : ApplicationManifest
  stored : Option ApplicationManifest
  reported : ApplicationStatus
  answered : ApplicationStatus
  persisted : Option ApplicationStatus
  deriving DecidableEq

structure System where
  db : Registry
  lock : Option ℕ := none
  queue : List ℕ := []
  phases : ℕ → Phase := fun _ => .absent
  returns : List StatusReturn := []

inductive Event where
  | status (i : ℕ)
  | arrive (i : ℕ) (locked : Locked)
  | wake
  | report (i : ℕ) (observation : Awaited RuntimeState)
  | preflight (i : ℕ) (preflight : Preflight)
  | called (i : ℕ) (call : Awaited AdapterResult)
  | confirm (i : ℕ) (observation : Awaited RuntimeState)

section
variable (service : LifecycleService) (applicationId : String)

/-- The manifest that is stored for the application. -/
def storedManifest (db : Registry) : Option ApplicationManifest :=
  (db.applications.lookup applicationId).bind fun record => service.yaml.load record.configYaml

def System.setPhase (sys : System) (i : ℕ) (phase : Phase) : System :=
  { sys with phases := Function.update sys.phases i phase }

/-- The request ends and releases the lock. -/
def System.finish (sys : System) (i : ℕ) (db : Registry) : System :=
  { sys.setPhase i .done with db, lock := none }

/-- The first piece of an action under its lock: a stop has no preflight to await. -/
def LifecycleService.enterAction (action : Action) : Program (ActionRun × Bool) := do
  let run ← service.beginAction applicationId action
  if action.starts then return (run, true)
  else return (← service.afterPreflight run (.listed []), false)

/-- Request `i` has the lock and runs up to its next await. -/
def System.enter (sys : System) (i : ℕ) : Locked → System
  | .status manifest state => { sys.setPhase i (.querying manifest state) with lock := some i }
  | .action action =>
    match service.enterAction applicationId action sys.db with
    | .ok (run, true) db => { sys.setPhase i (.checking run) with db, lock := some i }
    | .ok (run, false) db => { sys.setPhase i (.calling run) with db, lock := some i }
    | .error _ db => sys.finish i db
  | .update manifest =>
    sys.finish i (finalState
      (updateApplication service.yaml service.requester applicationId manifest sys.db))
  | .delete =>
    sys.finish i (finalState (deleteApplication service.requester applicationId sys.db))

/-- `async with lock`: at once when the lock is free and nobody waits, else in turn. -/
def System.acquire (sys : System) (i : ℕ) (locked : Locked) : System :=
  if sys.lock.isNone && sys.queue.isEmpty then sys.enter service applicationId i locked
  else { sys.setPhase i (.waiting locked) with queue := sys.queue ++ [i] }

/-- What a `status` that returns `response` from `db` leaves for the record. -/
def statusReturn (manifest : ApplicationManifest) (runtimeState : RuntimeState)
    (response : ApplicationStateResponse) (db : Registry) : StatusReturn where
  queried := manifest
  stored := storedManifest service applicationId db
  reported := runtimeState.status
  answered := response.status
  persisted := (db.instances.lookup applicationId).map ApplicationInstanceRecord.status

/-- The answer to the query of `status`. -/
def System.report (sys : System) (i : ℕ) (manifest : ApplicationManifest)
    (state : InstanceObject) : Awaited RuntimeState → System
  | .raised _ => sys.finish i sys.db
  | .returned runtimeState =>
    match applyRuntimeState state runtimeState sys.db with
    | .ok response db =>
      { sys.finish i db with
        returns := sys.returns ++
          [statusReturn service applicationId manifest runtimeState response db] }
    | .error _ db => sys.finish i db

/-- The system after an event, none when it cannot happen. -/
def System.step (sys : System) : Event → Option System
  | .status i =>
    match sys.phases i with
    | .absent =>
      match service.loadStatus applicationId sys.db with
      | .ok (.inl _) db => some { sys.setPhase i .done with db }
      | .ok (.inr (manifest, state)) db =>
        some (({ sys with db } : System).acquire service applicationId i (.status manifest state))
      | .error _ db => some { sys.setPhase i .done with db }
    | _ => none
  | .arrive i locked =>
    match sys.phases i, locked with
    | .absent, .status _ _ => none
    | .absent, _ => some (sys.acquire service applicationId i locked)
    | _, _ => none
  | .wake =>
    match sys.lock, sys.queue with
    | none, i :: rest =>
      match sys.phases i with
      | .waiting locked => some (({ sys with queue := rest } : System).enter service applicationId i
          locked)
      | _ => none
    | _, _ => none
  | .report i observation =>
    match sys.phases i with
    | .querying manifest state => some (sys.report service applicationId i manifest state observation)
    | _ => none
  | .preflight i preflight =>
    match sys.phases i with
    | .checking run =>
      match service.afterPreflight run preflight sys.db with
      | .ok run db => some { sys.setPhase i (.calling run) with db }
      | .error _ db => some (sys.finish i db)
    | _ => none
  | .called i (.raised _) =>
    match sys.phases i with
    | .calling _ => some (sys.finish i sys.db)
    | _ => none
  | .called i (.returned result) =>
    match sys.phases i with
    | .calling run =>
      match service.afterCall run result sys.db with
      | .ok none db => some { sys.setPhase i (.confirming run result) with db }
      | .ok (some _) db => some (sys.finish i db)
      | .error _ db => some (sys.finish i db)
    | _ => none
  | .confirm i (.raised _) =>
    match sys.phases i with
    | .confirming _ _ => some (sys.finish i sys.db)
    | _ => none
  | .confirm i (.returned runtimeState) =>
    match sys.phases i with
    | .confirming run result =>
      some (sys.finish i (finalState (service.afterStatus run result runtimeState sys.db)))
    | _ => none

/-- One event of the system. -/
def SystemStep (sys : System) (event : Event) (sys' : System) : Prop :=
  sys.step service applicationId event = some sys'

end

/-! ### Writing back a row that others may have written -/

/-- The status that a commit leaves in the stored row: the one assigned, unless it is the one that
was loaded; then the stored one stays. -/
def writtenStatus (db : Registry) (state : InstanceObject) (status : ApplicationStatus) :
    ApplicationStatus :=
  match state.loaded with
  | none => status
  | some loaded => writtenBack loaded.status status (db.persistedStatus state.applicationId)

/-- The object belongs to the application, and its row, if there is one, has this status. -/
structure HasStatus (applicationId : String) (status : ApplicationStatus) (db₀ : Registry)
    (state : InstanceObject) (db : Registry) : Prop where
  key : state.applicationId = applicationId
  applications : db.applications = db₀.applications
  status : ∀ row, db.instances.lookup applicationId = some row → row.status = status

theorem commitInstance_written (state : InstanceObject) (db : Registry) :
    Triple (fun db' => db' = db) (commitInstance state)
      (HasStatus state.applicationId (writtenStatus db state state.now.status) db)
      (fun _ _ => True) := by
  unfold commitInstance writtenStatus
  cases hloaded : state.loaded with
  | none =>
      refine Triple.get_bind fun db₀ hdb₀ => ?_
      rw [hdb₀]
      refine Triple.bind (require_fact trivial) fun _ => Triple.forEach fun db' h => ?_
      rw [h.2]
      intro db'' hdb''
      rw [hdb'']
      refine ⟨rfl, rfl, fun row hrow => ?_⟩
      have hrow : (db.instances.insert state.applicationId state.now).lookup
          state.applicationId = some row := hrow
      rw [Finmap.lookup_insert] at hrow
      cases hrow
      rfl
  | some loaded =>
      dsimp only
      split
      · rename_i hsame
        refine Triple.pure fun db' hdb' => ⟨rfl, by rw [hdb'], fun row hrow => ?_⟩
        rw [hdb'] at hrow
        rw [hsame, writtenBack, if_pos rfl, persistedStatus_of_row hrow]
      · intro db' hdb'
        rw [hdb']
        cases hstored : db.instances.lookup state.applicationId with
        | none =>
            have hrun : updateInstance state loaded db =
                .error .staleRow { db with clock := db.clock + 1 } := by
              simp only [updateInstance, run_bind, run_utcNow, run_get, hstored, run_throw]
            rw [hrun]
            trivial
        | some stored =>
            by_cases hid : stored.id = loaded.id
            · let now := { state.now with updatedAt := db.clock }
              have hrun : updateInstance state loaded db =
                  .ok { state with loaded := some now, now }
                    (({ db with clock := db.clock + 1 } : Registry).putInstance
                      state.applicationId (loaded.writeBack now stored db.clock)) := by
                simp only [updateInstance, run_bind, run_utcNow, run_get, hstored, require, hid,
                  decide_true, if_true, run_pure, run_modify, now]
              rw [hrun]
              refine ⟨rfl, rfl, fun row hrow => ?_⟩
              have hrow : (db.instances.insert state.applicationId
                  (loaded.writeBack now stored db.clock)).lookup state.applicationId = some row :=
                hrow
              rw [Finmap.lookup_insert] at hrow
              cases hrow
              rw [persistedStatus_of_row hstored]
              rfl
            · have hrun : updateInstance state loaded db =
                  .error .staleRow { db with clock := db.clock + 1 } := by
                simp only [updateInstance, run_bind, run_utcNow, run_get, hstored, require, hid,
                  decide_false, Bool.false_eq_true, if_false, run_throw]
              rw [hrun]
              trivial

/-- A refresh answers the stored row. -/
theorem refreshInstance_stored (state : InstanceObject) (db : Registry) :
    Triple (fun db' => db' = db) (refreshInstance state)
      (fun state' db' => db' = db ∧ state'.applicationId = state.applicationId ∧
        db.instances.lookup state.applicationId = some state'.now)
      (fun _ _ => True) := by
  intro db' hdb'
  rw [hdb']
  cases hstored : db.instances.lookup state.applicationId with
  | none =>
      have hrun : refreshInstance state db = .error .staleRow db := by
        simp only [refreshInstance, run_bind, run_get, hstored, run_throw]
      rw [hrun]
      trivial
  | some stored =>
      by_cases hid : stored.id = state.now.id
      · have hrun : refreshInstance state db =
            .ok { state with loaded := some stored, now := stored } db := by
          simp only [refreshInstance, run_bind, run_get, hstored, require, hid, decide_true,
            if_true, run_pure]
        rw [hrun]
        exact ⟨rfl, rfl, rfl⟩
      · have hrun : refreshInstance state db = .error .staleRow db := by
          simp only [refreshInstance, run_bind, run_get, hstored, require, hid, decide_false,
            Bool.false_eq_true, if_false, run_throw]
        rw [hrun]
        trivial

/-- What `_apply_runtime_state` answers and leaves behind, whoever wrote the row meanwhile. -/
structure Answered (state : InstanceObject) (runtimeState : RuntimeState) (db : Registry)
    (response : ApplicationStateResponse) (db' : Registry) : Prop where
  applications : db'.applications = db.applications
  row : ∃ row, db'.instances.lookup state.applicationId = some row ∧
    response.status = row.status ∧ row.status = writtenStatus db state runtimeState.status

theorem applyRuntimeState_written (state : InstanceObject) (runtimeState : RuntimeState)
    (db : Registry) :
    Triple (fun db' => db' = db) (applyRuntimeState state runtimeState)
      (Answered state runtimeState db) (fun _ _ => True) := by
  refine Triple.bind ((stampStatus_spec _ db).conseq (fun _ h => h) (fun _ _ h => h)
    (fun _ _ h => h.elim)) fun now => Triple.forEach fun db₁ h₁ => ?_
  obtain ⟨hsame, hstamped⟩ := h₁
  refine Triple.bind (commitInstance_written { state with now } db₁)
    fun state' => Triple.forEach fun db₂ hwritten => ?_
  refine Triple.bind (refreshInstance_stored state' db₂) fun state'' => Triple.pure fun db₃ h => ?_
  obtain ⟨rfl, hkey, hstored⟩ := h
  have hkey' : state'.applicationId = state.applicationId := hwritten.key
  rw [hkey'] at hstored
  have hstatus := hwritten.status state''.now hstored
  have hbefore : db₁.persistedStatus state.applicationId = db.persistedStatus state.applicationId := by
    rw [Registry.persistedStatus, hsame.instances]
    rfl
  refine ⟨hwritten.applications.trans hsame.applications, state''.now, hstored, rfl, ?_⟩
  rw [hstatus]
  show writtenStatus db₁ { state with now } now.status = _
  rw [hstamped.status, writtenStatus, writtenStatus]
  dsimp only
  rw [hbefore]

/-! ### Faithful answers -/

/-- The query went to the stored manifest's runtime, and what it reported is what was answered and
what is persisted. -/
structure StatusReturn.Faithful (r : StatusReturn) : Prop where
  stored : r.stored = some r.queried
  answered : r.answered = r.reported
  persisted : r.persisted = some r.reported

section
variable (service : LifecycleService) (applicationId : String)

/-- The loaded manifest is still the stored one, and if the query reports the status that was
loaded, then that is still the persisted one. -/
def CurrentAnswer (db : Registry) (manifest : ApplicationManifest) (state : InstanceObject)
    (runtimeState : RuntimeState) : Prop :=
  storedManifest service applicationId db = some manifest ∧
    ∀ loaded, state.loaded = some loaded → runtimeState.status = loaded.status →
      db.persistedStatus applicationId = loaded.status

/-- An answer reaches a `status` for which it is current. -/
def Current (sys : System) : Event → Prop
  | .report i (.returned runtimeState) => ∀ manifest state,
      sys.phases i = .querying manifest state →
        CurrentAnswer service applicationId sys.db manifest state runtimeState
  | _ => True

end

variable {service : LifecycleService} {applicationId : String}

theorem writtenStatus_eq_iff (db : Registry) (state : InstanceObject)
    (status : ApplicationStatus) :
    writtenStatus db state status = status ↔
      ∀ loaded, state.loaded = some loaded → status = loaded.status →
        db.persistedStatus state.applicationId = loaded.status := by
  rw [writtenStatus]
  cases hloaded : state.loaded with
  | none =>
      dsimp only
      refine ⟨fun _ other hother => ?_, fun _ => rfl⟩
      cases hother
  | some loaded =>
      dsimp only
      rw [writtenBack]
      by_cases hsame : status = loaded.status
      · rw [if_pos hsame]
        refine ⟨fun h other hother _ => ?_, fun h => ?_⟩
        · cases hother
          exact h.trans hsame
        · exact (h loaded rfl hsame).trans hsame.symm
      · rw [if_neg hsame]
        refine ⟨fun _ other hother h => ?_, fun _ => rfl⟩
        cases hother
        exact absurd h hsame

/-- **When a returning `status` is faithful**: exactly when the answer to its query is current. -/
theorem report_faithful_iff {db db' : Registry} {manifest : ApplicationManifest}
    {state : InstanceObject} {runtimeState : RuntimeState} {response : ApplicationStateResponse}
    (hkey : state.applicationId = applicationId)
    (hrun : applyRuntimeState state runtimeState db = .ok response db') :
    (statusReturn service applicationId manifest runtimeState response db').Faithful ↔
      CurrentAnswer service applicationId db manifest state runtimeState := by
  subst hkey
  obtain ⟨happlications, row, hrow, hanswer, hstatus⟩ :=
    (applyRuntimeState_written state runtimeState db).of_ok rfl hrun
  have hmanifest : storedManifest service state.applicationId db' =
      storedManifest service state.applicationId db := by
    rw [storedManifest, happlications]
    rfl
  have hanswered : response.status = writtenStatus db state runtimeState.status :=
    hanswer.trans hstatus
  have hpersisted : (db'.instances.lookup state.applicationId).map
      ApplicationInstanceRecord.status = some (writtenStatus db state runtimeState.status) := by
    rw [hrow, ← hstatus]
    rfl
  rw [CurrentAnswer, ← writtenStatus_eq_iff]
  constructor
  · intro h
    exact ⟨hmanifest.symm.trans h.stored, hanswered.symm.trans h.answered⟩
  · intro h
    exact ⟨hmanifest.trans h.1, hanswered.trans h.2, hpersisted.trans (congrArg some h.2)⟩

/-! ### The invariant -/

/-- A `status` under way holds the application's own row. -/
def Keyed (applicationId : String) : Phase → Prop
  | .querying _ state => state.applicationId = applicationId
  | .waiting (.status _ state) => state.applicationId = applicationId
  | _ => True

/-- Every `status` holds its own row, and every one that returned was faithful. -/
structure Serialised (applicationId : String) (sys : System) : Prop where
  keyed : ∀ i, Keyed applicationId (sys.phases i)
  faithful : ∀ r ∈ sys.returns, r.Faithful

/-- A change of one phase, without a return. -/
theorem Serialised.setPhase {sys sys' : System} (h : Serialised applicationId sys) {i : ℕ}
    {phase : Phase} (hphases : sys'.phases = Function.update sys.phases i phase)
    (hkeyed : Keyed applicationId phase) (hreturns : sys'.returns = sys.returns) :
    Serialised applicationId sys' where
  keyed j := by
    rw [hphases]
    by_cases hj : j = i
    · rw [hj, Function.update_self]
      exact hkeyed
    · rw [Function.update_of_ne hj]
      exact h.keyed j
  faithful r hr := h.faithful r (hreturns ▸ hr)

theorem Serialised.enter {sys : System} (h : Serialised applicationId sys) {i : ℕ}
    {locked : Locked} (hkeyed : Keyed applicationId (.waiting locked)) :
    Serialised applicationId (sys.enter service applicationId i locked) := by
  cases locked with
  | status manifest state => exact h.setPhase rfl hkeyed rfl
  | update manifest => exact h.setPhase rfl trivial rfl
  | delete => exact h.setPhase rfl trivial rfl
  | action action =>
      simp only [System.enter]
      split
      · exact h.setPhase rfl trivial rfl
      · exact h.setPhase rfl trivial rfl
      · exact h.setPhase rfl trivial rfl

theorem Serialised.acquire {sys : System} (h : Serialised applicationId sys) {i : ℕ}
    {locked : Locked} (hkeyed : Keyed applicationId (.waiting locked)) :
    Serialised applicationId (sys.acquire service applicationId i locked) := by
  unfold System.acquire
  split
  · exact h.enter hkeyed
  · exact h.setPhase rfl hkeyed rfl

/-- The load of a `status` event. -/
theorem Serialised.load {sys sys' : System} (h : Serialised applicationId sys) {i : ℕ}
    (hstep : sys.step service applicationId (.status i) = some sys') :
    Serialised applicationId sys' := by
  simp only [System.step] at hstep
  cases hphase : sys.phases i with
  | absent =>
      rw [hphase] at hstep
      dsimp only at hstep
      cases hload : service.loadStatus applicationId sys.db with
      | error raised db =>
          rw [hload] at hstep
          cases hstep
          exact h.setPhase rfl trivial rfl
      | ok found db =>
          have hloaded := (loadStatus_spec service applicationId sys.db).of_ok rfl hload
          rw [hload] at hstep
          cases hloaded with
          | disabled =>
              cases hstep
              exact h.setPhase rfl trivial rfl
          | found _ _ hstate _ =>
              cases hstep
              have hread : Serialised applicationId ({ sys with db } : System) :=
                ⟨h.keyed, h.faithful⟩
              exact hread.acquire hstate.key
  | _ =>
      rw [hphase] at hstep
      cases hstep

/-- The answer to the query of a `status` for which it is current. -/
theorem Serialised.report {sys : System} (h : Serialised applicationId sys) {i : ℕ}
    {manifest : ApplicationManifest} {state : InstanceObject}
    (hphase : sys.phases i = .querying manifest state) {observation : Awaited RuntimeState}
    (hcurrent : Current service applicationId sys (.report i observation)) :
    Serialised applicationId (sys.report service applicationId i manifest state observation) := by
  cases observation with
  | raised exception => exact h.setPhase rfl trivial rfl
  | returned runtimeState =>
      have hkey : state.applicationId = applicationId := by
        have hkeyed := h.keyed i
        rwa [hphase] at hkeyed
      simp only [System.report]
      cases hrun : applyRuntimeState state runtimeState sys.db with
      | error raised db => exact h.setPhase rfl trivial rfl
      | ok response db =>
          have hfaithful : (statusReturn service applicationId manifest runtimeState response
              db).Faithful :=
            (report_faithful_iff hkey hrun).mpr (hcurrent manifest state hphase)
          have hfinished : Serialised applicationId (sys.finish i db) :=
            h.setPhase rfl trivial rfl
          refine ⟨hfinished.keyed, fun r hr => ?_⟩
          rcases List.mem_append.mp hr with hold | hnew
          · exact h.faithful r hold
          · rw [List.mem_singleton.mp hnew]
            exact hfaithful

theorem Serialised.step {sys sys' : System} {event : Event} (h : Serialised applicationId sys)
    (hcurrent : Current service applicationId sys event)
    (hstep : SystemStep service applicationId sys event sys') : Serialised applicationId sys' := by
  cases event with
  | status i => exact h.load hstep
  | report i observation =>
      simp only [SystemStep, System.step] at hstep
      split at hstep
      · rename_i manifest state hphase
        cases hstep
        exact h.report hphase hcurrent
      · cases hstep
  | arrive i locked =>
      simp only [SystemStep, System.step] at hstep
      split at hstep
      · cases hstep
      · rename_i request _ _ _ hlocked
        cases hstep
        refine h.acquire ?_
        cases request with
        | status manifest state => exact absurd rfl (hlocked manifest state)
        | _ => trivial
      · cases hstep
  | wake =>
      simp only [SystemStep, System.step] at hstep
      split at hstep
      · rename_i i rest _ _
        split at hstep
        · rename_i locked hphase
          cases hstep
          have hkeyed := h.keyed i
          rw [hphase] at hkeyed
          have hpopped : Serialised applicationId ({ sys with queue := rest } : System) :=
            ⟨h.keyed, h.faithful⟩
          exact hpopped.enter hkeyed
        · cases hstep
      · cases hstep
  | preflight i preflight =>
      simp only [SystemStep, System.step] at hstep
      split at hstep
      · split at hstep <;> (cases hstep; exact h.setPhase rfl trivial rfl)
      · cases hstep
  | called i call =>
      cases call with
      | raised exception =>
          simp only [SystemStep, System.step] at hstep
          split at hstep
          · cases hstep
            exact h.setPhase rfl trivial rfl
          · cases hstep
      | returned result =>
          simp only [SystemStep, System.step] at hstep
          split at hstep
          · split at hstep <;> (cases hstep; exact h.setPhase rfl trivial rfl)
          · cases hstep
  | confirm i observation =>
      cases observation with
      | raised exception =>
          simp only [SystemStep, System.step] at hstep
          split at hstep
          · cases hstep
            exact h.setPhase rfl trivial rfl
          · cases hstep
      | returned runtimeState =>
          simp only [SystemStep, System.step] at hstep
          split at hstep
          · cases hstep
            exact h.setPhase rfl trivial rfl
          · cases hstep

/-- **Faithful answers over a run**: whatever the interleaving, as long as every answer that
reaches a `status` is current, every `status` that returned was faithful. -/
theorem status_serialised (service : LifecycleService) (applicationId : String) (db : Registry)
    (sys : System)
    (hrun : Reach (SystemStep service applicationId) (Current service applicationId) { db } sys) :
    ∀ r ∈ sys.returns, r.Faithful := by
  have hstart : Serialised applicationId ({ db } : System) :=
    ⟨fun i => trivial, fun r hr => by cases hr⟩
  have hserialised : Serialised applicationId sys :=
    hrun.invariant hstart fun _ _ _ h hcurrent hstep => h.step hcurrent hstep
  exact hserialised.faithful

/-! ### A status that overtakes nothing, and one that waits for a stop -/

/-- The system after an event that can happen. -/
def System.after (sys : System) (event : Event) : System :=
  (sys.step ollamaService "ollama" event).getD sys

theorem systemStep_after {sys : System} {event : Event}
    (h : (sys.step ollamaService "ollama" event).isSome = true) :
    SystemStep ollamaService "ollama" sys event (sys.after event) := by
  rw [SystemStep, System.after]
  cases hstep : sys.step ollamaService "ollama" event with
  | none =>
      rw [hstep] at h
      cases h
  | some sys' => rfl

/-- The system before any request, with `ollama` running. -/
def quiet : System := { db := started.db }

def reported (status : ApplicationStatus) : Awaited RuntimeState :=
  .returned { status, runtimeIdentifier := "machinedeck-ollama.service" }

/-- The answer to the stop that the runtime command did not finish in time. -/
def timedOut : Awaited AdapterResult :=
  .returned { succeeded := false, message := "Runtime command timed out",
              errorCode := some "RUNTIME_TIMEOUT" }

set_option maxRecDepth 8000 in
theorem status_serialised_alone :
    ∃ r, ((quiet.after (.status 0)).after (.report 0 (reported .stopped))).returns = [r] ∧
      r.Faithful := by
  have hreturned : ∃ r, ((quiet.after (.status 0)).after (.report 0 (reported .stopped))).returns =
      [r] := ⟨_, rfl⟩
  obtain ⟨r, hr⟩ := hreturned
  refine ⟨r, hr, status_serialised ollamaService "ollama" started.db _ ?_ r
    (hr ▸ List.mem_singleton_self r)⟩
  have hfree : Current ollamaService "ollama" quiet (.status 0) := trivial
  have hload : Reach (SystemStep ollamaService "ollama") (Current ollamaService "ollama") quiet
      (quiet.after (.status 0)) :=
    Reach.next Reach.start hfree (systemStep_after (by decide))
  refine Reach.next hload ?_ (systemStep_after (by decide))
  intro manifest state hphase
  have hquerying : ∃ row, (quiet.after (.status 0)).phases 0 = .querying ollama
      { applicationId := "ollama", loaded := some row, now := row } ∧ row.status = .running :=
    ⟨_, rfl, by decide⟩
  obtain ⟨row, hrow, hrunning⟩ := hquerying
  rw [hrow] at hphase
  cases hphase
  refine ⟨by decide, fun loaded hloaded hsame => ?_⟩
  cases hloaded
  rw [hrunning] at hsame
  cases hsame

/-- A stop has written `STOPPING` when a `status` loads the row, and times out.  The query then
reports `STOPPING`, and `FAILED` is answered and stays persisted. -/
def afterTimeout : System :=
  ((((quiet.after (.arrive 0 (.action .stop))).after (.status 1)).after
    (.called 0 timedOut)).after .wake).after (.report 1 (reported .stopping))

set_option maxRecDepth 8000 in
theorem status_unserialised :
    ¬ ∀ sys, Reach (SystemStep ollamaService "ollama") Anyhow quiet sys →
      ∀ r ∈ sys.returns, r.Faithful := by
  intro h
  have happens : ∀ {sys : System} {event : Event},
      Reach (SystemStep ollamaService "ollama") Anyhow quiet sys →
      (sys.step ollamaService "ollama" event).isSome = true →
      Reach (SystemStep ollamaService "ollama") Anyhow quiet (sys.after event) :=
    fun hreach hstep => Reach.next hreach trivial (systemStep_after hstep)
  have hreach : Reach (SystemStep ollamaService "ollama") Anyhow quiet afterTimeout := by
    refine happens (happens (happens (happens (happens Reach.start ?_) ?_) ?_) ?_) ?_
    all_goals decide
  have hanswered : ∃ r ∈ afterTimeout.returns, r.answered = .failed ∧ r.reported = .stopping := by
    decide
  obtain ⟨r, hr, hfailed, hstopping⟩ := hanswered
  have hfaithful := (h afterTimeout hreach r hr).answered
  rw [hfailed, hstopping] at hfaithful
  cases hfaithful

end MachineDeck.Lifecycle

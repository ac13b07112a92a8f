import MachineDeck.InstanceStages
import MachineDeck.UnitMemory
import Mathlib.Data.Finset.Sort

/-!
# Recorded unit consistency

`systemd/consistency.py`: a check compares the unit of an application with its manifest, and merges
the result into the metadata of the instance row.

* `checkApplicationUnit`, `reconcileAllUserUnits` — the checks;
* `ConsistencyCall`, `consistencyStages` — checks, `status` and `action` in any order;
* `LatestRecorded` — the metadata holds the result of the latest check;
* `consistency_recorded_iff` — when it does so along a run.
-/

namespace MachineDeck.Lifecycle

open ProgramTriple RecordedRuns
open Systemd (UnitConsistency UnitConsistencyResult UnitHost UserUnitManager assign ollamaUnits)

/-! ### The checks -/

/-- `UnitConsistency.value`. -/
def consistencyValue : UnitConsistency → String
  | .isMatch => "MATCH"
  | .isMissing => "MISSING"
  | .isMismatch => "MISMATCH"
  | .isUnsafe => "UNSAFE"
  | .notProcess => "NOT_PROCESS"

structure UnitConsistencyResponse where
  applicationId : String
  unitName : Option String
  status : String
  message : String
  deriving DecidableEq

/-- The manager of a check, with the unit directory that it finds. -/
structure UnitChecker where
  yaml : ManifestYaml
  manager : UserUnitManager
  host : UnitHost

/-- An exception of the manager, which the check does not catch. -/
def unitRaised : Systemd.Raised → Raised
  | .unitError message => .external message
  | .fileNotFound => .external "FileNotFoundError"

/-- The metadata with the result of a check. -/
def withConsistency (metadata : List (String × String)) (result : UnitConsistencyResult) :
    List (String × String) :=
  assign (assign metadata "unit_consistency" (consistencyValue result.status))
    "unit_consistency_message" result.message

/-- The row of the instance, when there is one, is given the result. -/
def recordConsistency (applicationId : String) (result : UnitConsistencyResult) : Program Unit := do
  match (← get).instances.lookup applicationId with
  | none => return ()
  | some row =>
    let now := { row with metadata := withConsistency row.metadata result }
    let _ ← commitInstance { applicationId, loaded := some row, now }

/-- `check_application_unit`. -/
def checkApplicationUnit (checker : UnitChecker) (applicationId : String) :
    Program UnitConsistencyResponse := do
  match (← get).applications.lookup applicationId with
  | none => throw (.value s!"Application not found: {applicationId}")
  | some record =>
    match checker.yaml.load record.configYaml with
    | none => throw .unreadableManifest
    | some manifest =>
      match checker.manager.consistency manifest checker.host with
      | .error raised _ => throw (unitRaised raised)
      | .ok result _ =>
        recordConsistency applicationId result
        return {
          applicationId := result.applicationId
          unitName := result.unitName
          status := consistencyValue result.status
          message := result.message }

/-- The order in which the database returns the rows of a query without `ORDER BY`. -/
structure RowOrder where
  arrange : List (String × ApplicationRecord) → List (String × ApplicationRecord)
  perm : ∀ rows, (arrange rows).Perm rows

/-- `select(ApplicationRecord).where(ApplicationRecord.runtime_type == "process")`. -/
def processRecords (order : RowOrder) (db : Registry) : List (String × ApplicationRecord) :=
  order.arrange <| (db.applications.keys.sort (· ≤ ·)).filterMap fun applicationId =>
    (db.applications.lookup applicationId).bind fun record =>
      if record.runtimeType = "process" then some (applicationId, record) else none

/-- The loop of `reconcile_all_user_units`; `checkers` has the unit directory as each application
finds it. -/
def reconcileRecords (checkers : String → UnitChecker) :
    List (String × ApplicationRecord) → Program (List UnitConsistencyResponse)
  | [] => return []
  | (applicationId, record) :: rest =>
    match (checkers applicationId).yaml.load record.configYaml with
    | none => throw .unreadableManifest
    | some manifest =>
      match manifest.runtime with
      | .compose _ => reconcileRecords checkers rest
      | .process _ => do
        let result ← checkApplicationUnit (checkers applicationId) applicationId
        let results ← reconcileRecords checkers rest
        return result :: results

/-- `reconcile_all_user_units`. -/
def reconcileAllUserUnits (checkers : String → UnitChecker) (order : RowOrder) :
    Program (List UnitConsistencyResponse) := do
  reconcileRecords checkers (processRecords order (← get))

/-! ### Runs -/

/-- A call on the applications, with the answers it finds. -/
inductive ConsistencyCall where
  | check (checker : UnitChecker) (applicationId : String)
  | reconcile (checkers : String → UnitChecker) (order : RowOrder)
  | lifecycle (service : LifecycleService) (call : Call)

/-- A piece of a call to the lifecycle service, or a check of the application that has returned. -/
inductive Happening where
  | piece (piece : Piece)
  | checked (response : UnitConsistencyResponse)

section
variable (applicationId : String)

/-- A check of `checked`, as it is seen from the application. -/
def checkStage (checker : UnitChecker) (checked : String) (db : Registry) : Happening × Registry :=
  match checkApplicationUnit checker checked db with
  | .error _ db => (.piece .quiet, db)
  | .ok response db => (if checked = applicationId then .checked response else .piece .quiet, db)

def reconcileStages (checkers : String → UnitChecker) :
    List (String × ApplicationRecord) → Registry → List (Happening × Registry)
  | [], _ => []
  | (checked, record) :: rest, db =>
    match (checkers checked).yaml.load record.configYaml with
    | none => []
    | some manifest =>
      match manifest.runtime with
      | .compose _ => reconcileStages checkers rest db
      | .process _ =>
        match checkApplicationUnit (checkers checked) checked db with
        | .error _ _ => [checkStage applicationId (checkers checked) checked db]
        | .ok _ db' => checkStage applicationId (checkers checked) checked db ::
            reconcileStages checkers rest db'

/-- The pieces of a call, each with the registry after it. -/
def ConsistencyCall.stages (call : ConsistencyCall) (db : Registry) : List (Happening × Registry) :=
  match call with
  | .check checker checked => [checkStage applicationId checker checked db]
  | .reconcile checkers order =>
    reconcileStages applicationId checkers (processRecords order db) db
  | .lifecycle service call => (call.stages service applicationId db).map (Prod.map .piece id)

/-- The registry after a call. -/
def ConsistencyCall.perform (call : ConsistencyCall) (db : Registry) : Registry :=
  match call with
  | .check checker checked => finalState (checkApplicationUnit checker checked db)
  | .reconcile checkers order => finalState (reconcileAllUserUnits checkers order db)
  | .lifecycle service call => call.perform service applicationId db

/-- The pieces of a run of calls. -/
def consistencyStages : Registry → List ConsistencyCall → List (Happening × Registry)
  | _, [] => []
  | db, call :: rest =>
      call.stages applicationId db ++ consistencyStages (call.perform applicationId db) rest

end

/-! ### What a check writes -/

theorem lookup_assign_self (values : List (String × String)) (key value : String) :
    (assign values key value).lookup key = some value := by
  unfold assign
  cases hkey : (values.lookup key).isSome with
  | true =>
      rw [if_pos rfl]
      induction values with
      | nil => cases hkey
      | cons item rest ih =>
          obtain ⟨name, old⟩ := item
          by_cases hname : name = key
          · simp [hname]
          · have hne : (key == name) = false := by simpa using Ne.symm hname
            simp only [List.lookup_cons, hne] at hkey
            simp only [List.map_cons, if_neg hname, List.lookup_cons, hne]
            exact ih hkey
  | false =>
      rw [if_neg (by simp)]
      induction values with
      | nil => simp
      | cons item rest ih =>
          obtain ⟨name, old⟩ := item
          cases hne : key == name with
          | true => simp [List.lookup_cons, hne] at hkey
          | false =>
              simp only [List.lookup_cons, hne] at hkey
              simp only [List.cons_append, List.lookup_cons, hne]
              exact ih hkey

theorem lookup_assign_of_ne (values : List (String × String)) {key other : String} (value : String)
    (h : other ≠ key) : (assign values key value).lookup other = values.lookup other := by
  have hne : (other == key) = false := by simpa using h
  have hmap : (values.map fun item => if item.1 = key then (key, value) else item).lookup other =
      values.lookup other := by
    induction values with
    | nil => rfl
    | cons item rest ih =>
        obtain ⟨name, old⟩ := item
        rw [List.map_cons]
        by_cases hname : name = key
        · rw [if_pos hname, hname, List.lookup_cons, List.lookup_cons, hne]
          exact ih
        · rw [if_neg hname, List.lookup_cons, List.lookup_cons, ih]
  unfold assign
  split
  · exact hmap
  · rw [List.lookup_append]
    simp [List.lookup_cons, hne]

theorem lookup_withConsistency (metadata : List (String × String))
    (result : UnitConsistencyResult) :
    (withConsistency metadata result).lookup "unit_consistency" =
        some (consistencyValue result.status) ∧
      (withConsistency metadata result).lookup "unit_consistency_message" =
        some result.message := by
  unfold withConsistency
  refine ⟨?_, lookup_assign_self _ _ _⟩
  rw [lookup_assign_of_ne _ _ (by decide)]
  exact lookup_assign_self _ _ _

/-- What a check that returned leaves of the row, as it is seen from its application. -/
structure CheckedRow (applicationId : String) (db : Registry) (response : UnitConsistencyResponse)
    (db' : Registry) : Prop where
  missing : db.instances.lookup applicationId = none → db'.instances.lookup applicationId = none
  stored : (db.instances.lookup applicationId).isSome = true →
    (db'.rowMetadata applicationId).lookup "unit_consistency" = some response.status ∧
      (db'.rowMetadata applicationId).lookup "unit_consistency_message" = some response.message

/-- The row of the instance after `recordConsistency`. -/
structure ResultRow (applicationId : String) (result : UnitConsistencyResult) (db db' : Registry) :
    Prop where
  missing : db.instances.lookup applicationId = none → db' = db
  stored : ∀ row, db.instances.lookup applicationId = some row →
    db'.rowMetadata applicationId = withConsistency row.metadata result
  written : WrittenInstance applicationId db db'

theorem recordConsistency_row (applicationId : String) (result : UnitConsistencyResult)
    (db : Registry) :
    Triple (fun db' => db' = db) (recordConsistency applicationId result)
      (fun _ db' => ResultRow applicationId result db db') (fun _ _ => False) := by
  refine Triple.get_bind fun db' hdb' => ?_
  rw [hdb']
  cases hrow : db.instances.lookup applicationId with
  | none =>
      refine Triple.pure fun db' hdb' => ⟨fun _ => hdb', ?_, ?_⟩
      · intro row hsome
        rw [hrow] at hsome
        cases hsome
      · rw [hdb']
        exact (SameRecords.refl db).written _
  | some row =>
      have hcommittable : Committable db
          { applicationId, loaded := some row,
            now := { row with metadata := withConsistency row.metadata result } } :=
        Committable.update rfl hrow rfl rfl
      refine Triple.bind ((commitInstance_spec hcommittable).conseq (fun _ h => h) (fun _ _ h => h)
        (fun _ _ h => h.elim)) fun state => Triple.pure fun db' hc => ⟨?_, ?_, hc.written⟩
      · intro hnone
        rw [hrow] at hnone
        cases hnone
      · intro row' hrow'
        obtain rfl : row = row' := Option.some.inj (hrow.symm.trans hrow')
        have hstored := hc.attached.stored
        rw [hc.applicationId] at hstored
        rw [Registry.rowMetadata, hstored, hc.now]
        rfl

theorem recordConsistency_ok (applicationId : String) (result : UnitConsistencyResult)
    (db : Registry) : recordConsistency applicationId result db =
      .ok () (finalState (recordConsistency applicationId result db)) := by
  have hspec := recordConsistency_row applicationId result db db rfl
  cases hrow : recordConsistency applicationId result db with
  | error raised db' =>
      rw [hrow] at hspec
      exact hspec.elim
  | ok answer db' => rw [finalState]

theorem checkApplicationUnit_eq {checker : UnitChecker} {applicationId : String} {db db' : Registry}
    {record : ApplicationRecord} (hrecord : db.applications.lookup applicationId = some record)
    {manifest : ApplicationManifest} (hload : checker.yaml.load record.configYaml = some manifest)
    {result : UnitConsistencyResult} {host : UnitHost}
    (hresult : checker.manager.consistency manifest checker.host = .ok result host)
    (hrow : recordConsistency applicationId result db = .ok () db') :
    checkApplicationUnit checker applicationId db =
      .ok { applicationId := result.applicationId, unitName := result.unitName,
            status := consistencyValue result.status, message := result.message } db' := by
  simp only [checkApplicationUnit, run_bind]
  show (match db.applications.lookup applicationId with | none => throw _ | some _ => _ : Program _)
    db = _
  simp only [hrecord, hload, hresult, run_bind, hrow]
  rfl

/-- What a check leaves: of other applications everything. -/
structure CheckRow (applicationId : String) (db : Registry) (response : UnitConsistencyResponse)
    (db' : Registry) : Prop where
  row : CheckedRow applicationId db response db'
  others : ∀ other, other ≠ applicationId → db'.instances.lookup other = db.instances.lookup other

theorem checkApplicationUnit_row (checker : UnitChecker) (applicationId : String) (db : Registry) :
    Triple (fun db' => db' = db) (checkApplicationUnit checker applicationId)
      (fun response db' => CheckRow applicationId db response db') (fun _ db' => db' = db) := by
  refine Triple.get_bind fun db' hdb' => ?_
  rw [hdb']
  cases db.applications.lookup applicationId with
  | none => exact Triple.throw fun _ h => h
  | some record =>
      dsimp only
      cases checker.yaml.load record.configYaml with
      | none => exact Triple.throw fun _ h => h
      | some manifest =>
          dsimp only
          cases checker.manager.consistency manifest checker.host with
          | error raised host => exact Triple.throw fun _ h => h
          | ok result host =>
              refine Triple.bind ((recordConsistency_row applicationId result db).conseq
                (fun _ h => h) (fun _ _ h => h) (fun _ _ h => h.elim))
                fun _ => Triple.pure fun db' hresult => ⟨⟨?_, ?_⟩, hresult.written.others⟩
              · intro hnone
                rw [hresult.missing hnone]
                exact hnone
              · intro hsome
                obtain ⟨row, hrow⟩ := Option.isSome_iff_exists.mp hsome
                rw [hresult.stored row hrow]
                exact lookup_withConsistency row.metadata result

/-! ### The pieces of a call -/

/-- What a piece does to the row of the application. -/
def HappeningStep (applicationId : String) (db : Registry) : Happening → Registry → Prop
  | .piece piece, db' => Effect applicationId db db' piece
  | .checked response, db' => CheckedRow applicationId db response db'

theorem checkStage_step (applicationId : String) (checker : UnitChecker) (checked : String)
    (db : Registry) :
    HappeningStep applicationId db (checkStage applicationId checker checked db).1
      (checkStage applicationId checker checked db).2 := by
  have hcheck := checkApplicationUnit_row checker checked db db rfl
  unfold checkStage
  cases hrun : checkApplicationUnit checker checked db with
  | error raised db' =>
      rw [hrun] at hcheck
      exact Effect.of_same (congrArg Registry.instances hcheck)
  | ok response db' =>
      rw [hrun] at hcheck
      by_cases hsame : checked = applicationId
      · simp only [if_pos hsame]
        exact hsame ▸ hcheck.row
      · simp only [if_neg hsame]
        exact Effect.kept (hcheck.others applicationId (Ne.symm hsame))

theorem checkStage_end (applicationId : String) (checker : UnitChecker) (checked : String)
    (db : Registry) :
    (checkStage applicationId checker checked db).2 =
      finalState (checkApplicationUnit checker checked db) := by
  unfold checkStage
  cases checkApplicationUnit checker checked db with
  | error raised db' => rfl
  | ok response db' => rfl

theorem reconcileStages_steps (applicationId : String) (checkers : String → UnitChecker)
    (records : List (String × ApplicationRecord)) (db : Registry) :
    Steps (HappeningStep applicationId) db (reconcileStages applicationId checkers records db) ∧
      endOf db (reconcileStages applicationId checkers records db) =
        finalState (reconcileRecords checkers records db) := by
  induction records generalizing db with
  | nil => exact ⟨trivial, rfl⟩
  | cons first rest ih =>
      obtain ⟨checked, record⟩ := first
      unfold reconcileStages reconcileRecords
      cases (checkers checked).yaml.load record.configYaml with
      | none => exact ⟨trivial, rfl⟩
      | some manifest =>
          dsimp only
          cases manifest.runtime with
          | compose runtime => exact ih db
          | process runtime =>
              have hstep := checkStage_step applicationId (checkers checked) checked db
              have hend := checkStage_end applicationId (checkers checked) checked db
              dsimp only
              rw [run_bind]
              cases hrun : checkApplicationUnit (checkers checked) checked db with
              | error raised db' =>
                  rw [hrun] at hend
                  exact ⟨⟨hstep, trivial⟩, hend⟩
              | ok response db' =>
                  rw [hrun] at hend
                  have hfirst : (checkStage applicationId (checkers checked) checked db).2 = db' := hend
                  obtain ⟨hsteps, hlast⟩ := ih db'
                  refine ⟨⟨hstep, ?_⟩, ?_⟩
                  · show Steps _ (checkStage applicationId (checkers checked) checked db).2 _
                    rw [hfirst]
                    exact hsteps
                  · show endOf (checkStage applicationId (checkers checked) checked db).2 _ = _
                    rw [hfirst, hlast]
                    dsimp only
                    rw [run_bind]
                    cases reconcileRecords checkers rest db' with
                    | error raised db'' => rfl
                    | ok results db'' => rfl

theorem ConsistencyCall.stages_steps (call : ConsistencyCall) (applicationId : String)
    (db : Registry) :
    Steps (HappeningStep applicationId) db (call.stages applicationId db) ∧
      endOf db (call.stages applicationId db) = call.perform applicationId db := by
  cases call with
  | check checker checked =>
      exact ⟨⟨checkStage_step applicationId checker checked db, trivial⟩,
        checkStage_end applicationId checker checked db⟩
  | reconcile checkers order => exact reconcileStages_steps applicationId checkers _ db
  | lifecycle service call =>
      have hsteps := call.stages_steps service applicationId db
      refine ⟨hsteps.map fun _ _ _ h => h.1, ?_⟩
      exact (endOf_map _ _ _).trans (call.stages_end service applicationId db)

theorem consistencyStages_steps (applicationId : String) (db : Registry)
    (calls : List ConsistencyCall) :
    Steps (HappeningStep applicationId) db (consistencyStages applicationId db calls) := by
  induction calls generalizing db with
  | nil => exact trivial
  | cons call rest ih =>
      obtain ⟨hsteps, hend⟩ := call.stages_steps applicationId db
      refine hsteps.append ?_
      rw [hend]
      exact ih (call.perform applicationId db)

/-! ### The latest result -/

/-- The response of the latest check, after a piece. -/
def latestCheck (latest : Option UnitConsistencyResponse) (_ : Registry) (happening : Happening)
    (_ : Registry) : Option UnitConsistencyResponse :=
  match happening with
  | .piece _ => latest
  | .checked response => some response

/-- Pieces of calls leave the latest result as it is. -/
theorem through_pieces (latest : Option UnitConsistencyResponse) (db : Registry)
    (stages : List (Piece × Registry)) :
    through latestCheck latest db (stages.map (Prod.map .piece id)) = (latest, endOf db stages) := by
  induction stages generalizing db with
  | nil => rfl
  | cons first rest ih => exact ih first.2

/-- The metadata holds a result. -/
def HoldsResult (metadata : List (String × String)) (response : UnitConsistencyResponse) : Prop :=
  metadata.lookup "unit_consistency" = some response.status ∧
    metadata.lookup "unit_consistency_message" = some response.message

/-- The metadata of the row holds the result of the latest check. -/
def LatestRecorded (applicationId : String) (latest : Option UnitConsistencyResponse)
    (db : Registry) : Prop :=
  ∀ response, latest = some response → HoldsResult (db.rowMetadata applicationId) response

/-- What a piece has to meet: a check finds a row, and an observation that is recorded carries the
result of the latest check itself. -/
def KeepsResult (applicationId : String) (latest : Option UnitConsistencyResponse) (db : Registry) :
    Happening → Prop
  | .piece (.recorded runtimeState) =>
    ∀ response, latest = some response → HoldsResult runtimeState.metadata response
  | .piece _ => True
  | .checked _ => (db.instances.lookup applicationId).isSome = true

theorem HappeningStep.recorded_iff {applicationId : String}
    {latest : Option UnitConsistencyResponse} {db db' : Registry} {happening : Happening}
    (h : HappeningStep applicationId db happening db')
    (hlatest : LatestRecorded applicationId latest db) :
    LatestRecorded applicationId (latestCheck latest db happening db') db' ↔
      KeepsResult applicationId latest db happening := by
  cases happening with
  | checked response =>
      constructor
      · intro hrecorded
        have hmetadata := (hrecorded response rfl).1
        by_contra hmissing
        have hnone := h.missing (Option.not_isSome_iff_eq_none.mp hmissing)
        rw [Registry.rowMetadata, hnone] at hmetadata
        cases hmetadata
      · intro hsome response' hresponse
        cases hresponse
        exact h.stored hsome
  | piece piece =>
      have hkept (hsame : db'.rowMetadata applicationId = db.rowMetadata applicationId) :
          LatestRecorded applicationId latest db' := by
        rw [LatestRecorded, hsame]
        exact hlatest
      cases h with
      | kept row =>
          refine iff_of_true (hkept ?_) trivial
          rw [Registry.rowMetadata, Registry.rowMetadata, row]
      | moved target status not_running not_stopped started stopped metadata =>
          exact iff_of_true (hkept metadata) trivial
      | found row before after =>
          refine iff_of_true (hkept ?_) trivial
          rw [Registry.rowMetadata, Registry.rowMetadata, after, before]
      | inserted missing status started stopped metadata =>
          refine iff_of_true (hkept (metadata.trans ?_)) trivial
          rw [Registry.rowMetadata, missing]
          rfl
      | observed runtimeState status times metadata later =>
          show (∀ response, latest = some response → _) ↔ ∀ response, latest = some response → _
          rw [metadata]

/-- **When a recorded result survives.**  Along a run the metadata holds the result of the latest
check after every piece if and only if every check found a row and every observation recorded after
a check carried its result. -/
theorem consistency_recorded_iff (applicationId : String) (db : Registry)
    (calls : List ConsistencyCall) :
    Along latestCheck
        (fun latest db happening db' =>
          LatestRecorded applicationId (latestCheck latest db happening db') db')
        none db (consistencyStages applicationId db calls) ↔
      Along latestCheck (fun latest db happening _ => KeepsResult applicationId latest db happening)
        none db (consistencyStages applicationId db calls) := by
  refine Along.congr (I := LatestRecorded applicationId) ?_ ?_
    (consistencyStages_steps applicationId db calls) (fun response hnone => nomatch hnone)
  · intro latest db happening db' hlatest hstep
    exact HappeningStep.recorded_iff hstep hlatest
  · intro latest db happening db' hlatest hstep hrecorded
    exact hrecorded

/-! ### A forgotten result -/

/-- No unit is installed. -/
def bareChecker : UnitChecker where
  yaml := ollamaYaml
  manager := ollamaUnits
  host := { directory := none, loaded := fun _ => none }

/-- `ollama` is checked, and then found running. -/
def checkedThenRunning : List ConsistencyCall :=
  [.check bareChecker "ollama", .lifecycle ollamaService (.status (answering true .running))]

/-- Where that ends. -/
def forgottenEnd : Option UnitConsistencyResponse × Registry :=
  through latestCheck none registered (consistencyStages "ollama" registered checkedThenRunning)

/-- Where there is no unit directory the unit is missing. -/
theorem consistency_missing {manager : UserUnitManager} {manifest : ApplicationManifest}
    {runtime : ProcessRuntime} (hruntime : manifest.runtime = .process runtime) {text : String}
    (hrender : Systemd.renderUserUnit manager.paths manifest = .ok text) {host : UnitHost}
    (hdirectory : host.directory = none) :
    manager.consistency manifest host =
      .ok { applicationId := manifest.id,
            unitName := some ("machinedeck-" ++ manifest.id ++ ".service"),
            status := .isMissing } host := by
  have hcompare (unitName : String) : manager.compareUnit manifest unitName host =
      .ok { applicationId := manifest.id, unitName := some unitName, status := .isMissing } host := by
    simp [UserUnitManager.compareUnit, hrender, Systemd.lift, hdirectory]
  simp only [UserUnitManager.consistency, hruntime, Systemd.unitNameFor_eq manifest.validApplicationId,
    Systemd.lift]
  show EStateM.tryCatch (manager.compareUnit manifest _) _ host = _
  rw [EStateM.tryCatch, hcompare]

/-- The run of a check and then a status request. -/
theorem consistencyStages_checked (service : LifecycleService) (surroundings : Surroundings)
    {checker : UnitChecker} {applicationId : String} {db db' : Registry}
    {response : UnitConsistencyResponse}
    (hcheck : checkApplicationUnit checker applicationId db = .ok response db') :
    consistencyStages applicationId db
        [.check checker applicationId, .lifecycle service (.status surroundings)] =
      (.checked response, db') ::
        (statusStages service applicationId surroundings db').map (Prod.map .piece id) := by
  simp only [consistencyStages, ConsistencyCall.stages, ConsistencyCall.perform, checkStage, hcheck,
    finalState, if_true, List.append_nil, List.singleton_append, Call.stages]

/-- What the check of `ollama` finds. -/
def ollamaMissing : UnitConsistencyResult where
  applicationId := ollama.id
  unitName := some ("machinedeck-" ++ ollama.id ++ ".service")
  status := .isMissing

/-- The registry with that result. -/
def checkedRegistry : Registry := finalState (recordConsistency "ollama" ollamaMissing registered)

theorem checkApplicationUnit_bare : ∃ response,
    checkApplicationUnit bareChecker "ollama" registered = .ok response checkedRegistry := by
  have hstored : (registered.applications.lookup "ollama").map ApplicationRecord.configYaml =
      some (ollamaText ollama) := by decide +kernel
  obtain ⟨record, hrecord, hconfig⟩ := Option.map_eq_some_iff.mp hstored
  have hload : bareChecker.yaml.load record.configYaml = some ollama := by
    simp only [hconfig, bareChecker, ollamaYaml, List.find?_cons_of_pos, decide_true]
  have hruntime : ollama.runtime = .process Systemd.ollamaRuntime := rfl
  have hdirectory : bareChecker.host.directory = none := rfl
  have hrender : Systemd.renderUserUnit bareChecker.manager.paths ollama =
      .ok (Systemd.unitText ollama Systemd.ollamaRuntime) := Systemd.renderUserUnit_ollama
  have hresult := consistency_missing hruntime hrender hdirectory
  have hrow := recordConsistency_ok "ollama" ollamaMissing registered
  exact ⟨_, checkApplicationUnit_eq hrecord hload hresult hrow⟩

theorem checkedRegistry_status :
    (finalState (ollamaService.status (answering true .running) "ollama" checkedRegistry)).rowMetadata
      "ollama" = [] := by
  decide +kernel

theorem forgottenEnd_row : forgottenEnd.1.isSome = true ∧ forgottenEnd.2.rowMetadata "ollama" = [] := by
  obtain ⟨response, hcheck⟩ := checkApplicationUnit_bare
  rw [forgottenEnd, checkedThenRunning, consistencyStages_checked _ _ hcheck, through,
    through_pieces, statusStages_end]
  exact ⟨Option.isSome_some, by rw [checkedRegistry_status]⟩

/-- Not every recorded result survives: the next observation replaces the metadata. -/
theorem consistency_forgotten : ¬ ∀ (applicationId : String) (db : Registry)
    (calls : List ConsistencyCall),
      Along latestCheck
        (fun latest db happening db' =>
          LatestRecorded applicationId (latestCheck latest db happening db') db')
        none db (consistencyStages applicationId db calls) := by
  intro h
  have hend := Along.through (I := LatestRecorded "ollama") (fun _ _ _ _ hrecorded => hrecorded)
    (h "ollama" registered checkedThenRunning) (fun response hnone => nomatch hnone)
  rw [← forgottenEnd] at hend
  obtain ⟨hchecked, hmetadata⟩ := forgottenEnd_row
  obtain ⟨response, hresponse⟩ := Option.isSome_iff_exists.mp hchecked
  have hresult := (hend response hresponse).1
  rw [hmetadata] at hresult
  cases hresult

end MachineDeck.Lifecycle

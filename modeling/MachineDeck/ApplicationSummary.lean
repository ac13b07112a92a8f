import Mathlib.Data.String.Basic
import Mathlib.Data.Fintype.Defs
import MachineDeck.EnabledStatus
import MachineDeck.KeysetPages
import MachineDeck.TableQueries

/-!
# The application list and its summary

`list_applications` of `services/applications.py` and `ApplicationSummaryCollector` of
`dashboard/collectors.py`.  Each reads the tables by itself and derives a status from the enabled
flag and the newest instance row.

* `listApplications`, `collectApplications` — the two queries;
* `SummaryAgrees` — the summary counts what the list shows;
* `summaryAgrees_iff` — the two agree exactly where no enabled application is persisted as
  `DISABLED`;
* `summary_agrees` — so they do in every state of every run that never enables one.
-/

namespace MachineDeck.Lifecycle

open ProgramTriple GuardedRuns TableQueries

/-! ### The list -/

/-- `select(ApplicationRecord)`. -/
def Registry.applicationRows (db : Registry) : List (String × ApplicationRecord) :=
  rows db.applications

/-- `list_applications`, in the order of the names. -/
def listApplications (yaml : ManifestYaml) : Program (List ApplicationResponse) := do
  let records := (← get).applicationRows.insertionSort fun a b => a.2.name ≤ b.2.name
  records.mapM fun (applicationId, record) => response yaml applicationId record

/-! ### The summary -/

/-- The counters of an `ApplicationSummary`. -/
inductive SummaryBucket where
  | running | stopped | starting | stopping | unhealthy | failed | queued | unknown | disabled
  deriving DecidableEq, Repr

instance : Fintype SummaryBucket where
  elems := {.running, .stopped, .starting, .stopping, .unhealthy, .failed, .queued, .unknown,
    .disabled}
  complete bucket := by cases bucket <;> decide

structure ApplicationSummary where
  total : ℕ := 0
  running : ℕ := 0
  stopped : ℕ := 0
  starting : ℕ := 0
  stopping : ℕ := 0
  unhealthy : ℕ := 0
  failed : ℕ := 0
  queued : ℕ := 0
  unknown : ℕ := 0
  disabled : ℕ := 0
  deriving DecidableEq, Repr

/-- `ApplicationSummary(total=..., **counts)`. -/
def ApplicationSummary.ofCounts (total : ℕ) (counts : SummaryBucket → ℕ) : ApplicationSummary where
  total := total
  running := counts .running
  stopped := counts .stopped
  starting := counts .starting
  stopping := counts .stopping
  unhealthy := counts .unhealthy
  failed := counts .failed
  queued := counts .queued
  unknown := counts .unknown
  disabled := counts .disabled

def ApplicationSummary.bucket (summary : ApplicationSummary) : SummaryBucket → ℕ
  | .running => summary.running
  | .stopped => summary.stopped
  | .starting => summary.starting
  | .stopping => summary.stopping
  | .unhealthy => summary.unhealthy
  | .failed => summary.failed
  | .queued => summary.queued
  | .unknown => summary.unknown
  | .disabled => summary.disabled

@[simp] theorem bucket_ofCounts (total : ℕ) (counts : SummaryBucket → ℕ) :
    (ApplicationSummary.ofCounts total counts).bucket = counts := by
  funext bucket
  cases bucket <;> rfl

structure CollectorState where
  available : Bool
  errorCode : Option String := none
  message : Option String := none
  deriving DecidableEq, Repr

/-- `latest`: the status of the newest instance row of each application. -/
def Registry.latest (db : Registry) : List (String × ApplicationStatus) :=
  let instances := KeysetPages.ordered (fun row => row.2.createdAt) (rows db.instances)
  firstValues (instances.map fun row => (row.1, row.2.status))

/-- The counter that an application raises. -/
def summaryBucket (latest : List (String × ApplicationStatus)) (applicationId : String)
    (record : ApplicationRecord) : SummaryBucket :=
  if !record.enabled then .disabled
  else
    let status := (latest.lookup applicationId).getD .stopped
    if status = .running then .running
    else if status = .stopped then .stopped
    else if status = .starting ∨ status = .checking then .starting
    else if status = .stopping then .stopping
    else if status = .unhealthy then .unhealthy
    else if status = .failed then .failed
    else if status = .queued then .queued
    else .unknown

/-- `ApplicationSummaryCollector.collect`, with a session that is opened or raises an exception of
the class named. -/
def collectApplications : Except String Registry → ApplicationSummary × CollectorState
  | .ok db =>
    let applications := db.applicationRows
    let latest := db.latest
    let counts := tally (fun application => summaryBucket latest application.1 application.2)
      applications
    (ApplicationSummary.ofCounts applications.length counts, { available := true })
  | .error exception =>
    ({}, {
      available := false, errorCode := some "APPLICATION_SUMMARY_UNAVAILABLE"
      message := some exception.toUpper })

/-! ### Agreement -/

/-- The statuses that a counter stands for. -/
def SummaryBucket.statuses : SummaryBucket → List ApplicationStatus
  | .running => [.running]
  | .stopped => [.stopped]
  | .starting => [.starting, .checking]
  | .stopping => [.stopping]
  | .unhealthy => [.unhealthy]
  | .failed => [.failed]
  | .queued => [.queued]
  | .unknown => [.unknown]
  | .disabled => [.disabled]

/-- The counters of a summary are those of the applications listed. -/
structure Counts (summary : ApplicationSummary) (listed : List ApplicationResponse) : Prop where
  total : summary.total = listed.length
  sum : ∑ bucket, summary.bucket bucket = summary.total
  buckets : ∀ bucket, summary.bucket bucket =
    listed.countP fun response => response.status ∈ bucket.statuses

/-- The list is returned, the summary is available, and it counts the applications of the
registry as they are listed. -/
def SummaryAgrees (yaml : ManifestYaml) (db : Registry) : Prop :=
  ∃ listed, listApplications yaml db = .ok listed db ∧
    (collectApplications (.ok db)).2.available = true ∧
    (collectApplications (.ok db)).1.total = db.applications.keys.card ∧
    Counts (collectApplications (.ok db)).1 listed

/-! ### What each query shows -/

/-- Every stored manifest loads. -/
def Readable (yaml : ManifestYaml) (db : Registry) : Prop :=
  ∀ applicationId record, db.applications.lookup applicationId = some record →
    (yaml.load record.configYaml).isSome = true

/-- The status that the list shows. -/
def Registry.listedStatus (db : Registry) (applicationId : String) (record : ApplicationRecord) :
    ApplicationStatus :=
  if !record.enabled then .disabled else db.persistedStatus applicationId

theorem response_returns {yaml : ManifestYaml} (db : Registry) (applicationId : String)
    {record : ApplicationRecord} (hreadable : (yaml.load record.configYaml).isSome = true) :
    ∃ answer, response yaml applicationId record db = .ok answer db ∧
      answer.status = db.listedStatus applicationId record := by
  obtain ⟨manifest, hmanifest⟩ := Option.isSome_iff_exists.mp hreadable
  simp only [response, hmanifest]
  exact ⟨_, rfl, rfl⟩

/-- The answers for some rows, one for each, in their order. -/
theorem responses_returned {yaml : ManifestYaml} (db : Registry)
    {records : List (String × ApplicationRecord)}
    (hreadable : ∀ row ∈ records, (yaml.load row.2.configYaml).isSome = true) :
    ∃ answers, (records.mapM fun row => response yaml row.1 row.2) db = .ok answers db ∧
      answers.map ApplicationResponse.status =
        records.map fun row => db.listedStatus row.1 row.2 := by
  induction records with
  | nil => exact ⟨[], rfl, rfl⟩
  | cons row records ih =>
      obtain ⟨answer, hanswer, hstatus⟩ :=
        response_returns db row.1 (hreadable row List.mem_cons_self)
      obtain ⟨answers, hanswers, hstatuses⟩ :=
        ih fun other hother => hreadable other (List.mem_cons_of_mem row hother)
      refine ⟨answer :: answers, ?_, ?_⟩
      · simp only [List.mapM_cons, run_bind, hanswer, hanswers, run_pure]
      · rw [List.map_cons, List.map_cons, hstatus, hstatuses]

theorem mem_applicationRows {db : Registry} {row : String × ApplicationRecord} :
    row ∈ db.applicationRows ↔ db.applications.lookup row.1 = some row.2 := mem_rows

/-- The list is returned, and shows each application's status. -/
theorem listApplications_returned {yaml : ManifestYaml} {db : Registry}
    (hreadable : Readable yaml db) :
    ∃ listed, listApplications yaml db = .ok listed db ∧
      (listed.map ApplicationResponse.status).Perm
        (db.applicationRows.map fun row => db.listedStatus row.1 row.2) := by
  have hperm := List.perm_insertionSort
    (fun a b : String × ApplicationRecord => a.2.name ≤ b.2.name) db.applicationRows
  obtain ⟨listed, hlisted, hstatuses⟩ := responses_returned db
    fun row hrow => hreadable row.1 row.2 (mem_applicationRows.mp (hperm.mem_iff.mp hrow))
  refine ⟨listed, hlisted, ?_⟩
  rw [hstatuses]
  exact hperm.map _

/-- The newest instance row of an application is its only one. -/
theorem latest_status (db : Registry) (applicationId : String) :
    (db.latest.lookup applicationId).getD .stopped = db.persistedStatus applicationId := by
  let status := fun row : String × ApplicationInstanceRecord => (row.1, row.2.status)
  have hperm := (KeysetPages.ordered_perm (fun row => row.2.createdAt)
    (rows db.instances)).map status
  have hkeys : (((rows db.instances).map status).map Prod.fst).Nodup := by
    rw [List.map_map]
    exact nodup_rows_keys db.instances
  have hlookup : db.latest.lookup applicationId =
      (db.instances.lookup applicationId).map ApplicationInstanceRecord.status := by
    refine (lookup_firstValues_of_perm hperm hkeys applicationId).trans (Option.ext fun value => ?_)
    rw [lookup_eq_some_iff hkeys, List.mem_map, Option.map_eq_some_iff]
    constructor
    · rintro ⟨row, hrow, heq⟩
      obtain ⟨rfl, rfl⟩ := Prod.mk.inj heq
      exact ⟨row.2, mem_rows.mp hrow, rfl⟩
    · rintro ⟨row, hrow, rfl⟩
      exact ⟨(applicationId, row), mem_rows.mpr hrow, rfl⟩
  rw [hlookup]
  rfl

theorem summary_bucket (db : Registry) (bucket : SummaryBucket) :
    (collectApplications (.ok db)).1.bucket bucket =
      db.applicationRows.countP fun row => summaryBucket db.latest row.1 row.2 = bucket := by
  simp only [collectApplications, bucket_ofCounts, tally_eq_countP]

/-! ### When they agree -/

theorem listedStatus_disabled {db : Registry} {applicationId : String} {record : ApplicationRecord}
    (h : record.enabled = false) : db.listedStatus applicationId record = .disabled := by
  rw [Registry.listedStatus, h]
  rfl

theorem summaryBucket_disabled {db : Registry} {applicationId : String}
    {record : ApplicationRecord} (h : record.enabled = false) :
    summaryBucket db.latest applicationId record = .disabled := by
  rw [summaryBucket, h]
  rfl

/-- No enabled application is counted as disabled. -/
theorem summaryBucket_enabled {db : Registry} {applicationId : String} {record : ApplicationRecord}
    (h : record.enabled = true) : summaryBucket db.latest applicationId record ≠ .disabled := by
  simp only [summaryBucket, h, latest_status]
  generalize db.persistedStatus applicationId = status
  cases status <;> decide

/-- An application is counted under the status that the list shows, unless it is enabled and
persisted as `DISABLED`. -/
theorem summaryBucket_eq_iff {db : Registry} {applicationId : String} {record : ApplicationRecord}
    (h : record.enabled = true → db.persistedStatus applicationId ≠ .disabled)
    (bucket : SummaryBucket) :
    summaryBucket db.latest applicationId record = bucket ↔
      db.listedStatus applicationId record ∈ bucket.statuses := by
  cases henabled : record.enabled with
  | false =>
      rw [summaryBucket_disabled henabled, listedStatus_disabled henabled]
      cases bucket <;> decide
  | true =>
      have hstatus := h henabled
      simp only [summaryBucket, henabled, latest_status, Registry.listedStatus]
      generalize db.persistedStatus applicationId = status at hstatus ⊢
      revert hstatus
      cases status <;> cases bucket <;> decide

theorem listed_countP {db : Registry} {listed : List ApplicationResponse}
    (h : (listed.map ApplicationResponse.status).Perm
      (db.applicationRows.map fun row => db.listedStatus row.1 row.2)) (bucket : SummaryBucket) :
    (listed.countP fun response => response.status ∈ bucket.statuses) =
      db.applicationRows.countP fun row => db.listedStatus row.1 row.2 ∈ bucket.statuses := by
  have hcount := h.countP_eq fun status => decide (status ∈ bucket.statuses)
  rw [List.countP_map, List.countP_map] at hcount
  exact hcount

/-- **When the list and the summary agree.**  They do where no enabled application is persisted as
`DISABLED`, and only there. -/
theorem summaryAgrees_iff {yaml : ManifestYaml} {db : Registry} (hreadable : Readable yaml db) :
    SummaryAgrees yaml db ↔ ∀ applicationId, NotDisabled db applicationId := by
  obtain ⟨listed, hlisted, hperm⟩ := listApplications_returned hreadable
  have hlength : listed.length = db.applicationRows.length := by
    simpa only [List.length_map] using hperm.length_eq
  constructor
  · rintro ⟨listed', hlisted', -, -, hcounts⟩ applicationId record hrecord henabled hdisabled
    have hsame : listed' = listed := (EStateM.Result.ok.inj (hlisted'.symm.trans hlisted)).1
    have hbucket := hcounts.buckets .disabled
    rw [hsame, listed_countP hperm, summary_bucket] at hbucket
    have hcounted := holds_of_countP_le (fun row _ hrow => ?_) hbucket.ge
      (applicationId, record) (mem_applicationRows.mpr hrecord) ?_
    · exact summaryBucket_enabled henabled (of_decide_eq_true hcounted)
    · have hoff : row.2.enabled = false := by
        by_contra hon
        exact summaryBucket_enabled (Bool.of_not_eq_false hon) (of_decide_eq_true hrow)
      rw [listedStatus_disabled hoff]
      rfl
    · rw [Registry.listedStatus, henabled, hdisabled]
      rfl
  · intro h
    refine ⟨listed, hlisted, rfl, length_rows db.applications, ?_, ?_, ?_⟩
    · exact hlength.symm
    · simp only [collectApplications, bucket_ofCounts]
      exact sum_tally _ _
    · intro bucket
      rw [listed_countP hperm, summary_bucket]
      refine List.countP_congr fun row hrow => ?_
      rw [decide_eq_true_iff, decide_eq_true_iff]
      exact summaryBucket_eq_iff (h row.1 row.2 (mem_applicationRows.mp hrow)) bucket

/-! ### Stored manifests load -/

theorem Readable.insert {yaml : ManifestYaml} {db db' : Registry} (h : Readable yaml db)
    {applicationId : String} {record : ApplicationRecord}
    (hrecord : (yaml.load record.configYaml).isSome = true)
    (happlications : db'.applications = db.applications.insert applicationId record) :
    Readable yaml db' := by
  intro other record' hlookup
  rw [happlications] at hlookup
  by_cases hother : other = applicationId
  · rw [hother, Finmap.lookup_insert] at hlookup
    cases hlookup
    exact hrecord
  · rw [Finmap.lookup_insert_of_ne _ hother] at hlookup
    exact h other record' hlookup

theorem Readable.erase {yaml : ManifestYaml} {db db' : Registry} (h : Readable yaml db)
    {applicationId : String} (happlications : db'.applications = db.applications.erase applicationId) :
    Readable yaml db' := by
  intro other record hlookup
  rw [happlications] at hlookup
  by_cases hother : other = applicationId
  · rw [hother, Finmap.lookup_erase] at hlookup
    cases hlookup
  · rw [Finmap.lookup_erase_ne hother] at hlookup
    exact h other record hlookup

theorem Readable.of_same {yaml : ManifestYaml} {db db' : Registry} (h : Readable yaml db)
    (happlications : db'.applications = db.applications) : Readable yaml db' := by
  intro applicationId record hlookup
  exact h applicationId record (happlications ▸ hlookup)

section Stored

variable {yaml : ManifestYaml}

theorem require_keeps {I : Registry → Prop} (condition : Bool) (raised : Raised) :
    Keeps I (require condition raised) :=
  require_spec (fun _ _ h => h) (fun _ _ h => h)

theorem addAuditEvent_readable (requester : Requester) (action targetId result : String)
    (details : List (String × DetailValue)) :
    Keeps (Readable yaml) (addAuditEvent requester action targetId result details) :=
  fun _ h => h

theorem response_readable (applicationId : String) (record : ApplicationRecord) :
    Keeps (Readable yaml) (response yaml applicationId record) := by
  unfold response
  split
  · exact Keeps.throw _
  · exact Keeps.get_bind fun db _ => Keeps.pure _

theorem createApplication_readable (requester : Requester) (manifest : ApplicationManifest)
    (hyaml : (yaml.load (yaml.dump manifest)).isSome = true) :
    Keeps (Readable yaml) (createApplication yaml requester manifest) := by
  refine Keeps.get_bind fun db _ => Keeps.bind (require_keeps _ _) fun _ => ?_
  refine Keeps.bind (Keeps.modifyGet fun _ h => h) fun createdAt => ?_
  refine Keeps.bind (Keeps.modify fun db h => h.insert hyaml rfl) fun _ => ?_
  refine Keeps.bind (Keeps.modifyGet fun _ h => h) fun instanceId => ?_
  refine Keeps.bind (Keeps.modifyGet fun _ h => h) fun createdAt => ?_
  refine Keeps.bind (Keeps.modify fun db h => h.of_same rfl) fun _ => ?_
  exact Keeps.bind (addAuditEvent_readable _ _ _ _ _) fun _ => response_readable _ _

theorem updateApplication_readable (requester : Requester) (applicationId : String)
    (manifest : ApplicationManifest)
    (hyaml : (yaml.load (yaml.dump manifest)).isSome = true) :
    Keeps (Readable yaml) (updateApplication yaml requester applicationId manifest) := by
  refine Keeps.bind (require_keeps _ _) fun _ => Keeps.get_bind fun db _ => ?_
  split
  · exact Keeps.throw _
  · rename_i record _
    have hguard : Keeps (Readable yaml) (rejectActiveApplication applicationId) :=
      Keeps.get_bind fun db _ => require_keeps _ _
    have hwrite : Keeps (Readable yaml)
        (writeRecord applicationId record (record.assign yaml manifest)) := by
      unfold writeRecord
      split
      · exact Keeps.pure _
      · refine Keeps.bind (Keeps.modifyGet fun _ h => h) fun updatedAt => ?_
        exact Keeps.bind (Keeps.modify fun db h => h.insert hyaml rfl) fun _ => Keeps.pure _
    refine Keeps.bind hguard fun _ => Keeps.bind hwrite fun _ => ?_
    exact Keeps.bind (addAuditEvent_readable _ _ _ _ _) fun _ => response_readable _ _

end Stored

theorem DeleteEffect.readable {yaml : ManifestYaml} {applicationId : String} {db : Registry}
    {result : EStateM.Result Raised Registry Unit} (h : DeleteEffect applicationId db result)
    (hbefore : Readable yaml db) : Readable yaml (finalState result) := by
  cases h with
  | refused => exact hbefore
  | deleted hinactive h => exact hbefore.erase h.applications

theorem StatusEffect.applications {service : LifecycleService} {surroundings : Surroundings}
    {applicationId : String} {db db' : Registry}
    (h : StatusEffect service surroundings applicationId db db') :
    db'.applications = db.applications := by
  cases h with
  | raised h => exact h.applications
  | disabled hrecord hdisabled hrow hstatus h => exact h.applications
  | observed hrecord henabled hobservation hrow hstatus h => exact h.applications

theorem Course.applications {service : LifecycleService} {surroundings : Surroundings}
    {db₀ : Registry} {applicationId : String} {action : Action}
    {result : EStateM.Result Raised Registry LifecycleActionResponse}
    (h : Course service surroundings db₀ applicationId action result) :
    (finalState result).applications = db₀.applications := by
  cases h with
  | refused h hcode => exact h.applications
  | unchecked hstarts hraised hbegun => exact hbegun.started.applications
  | rejected hpreflight hreason hbegun h => exact h.applications.trans hbegun.started.applications
  | uncalled hraised h => exact h.started.applications
  | unobserved hcall hsucceeded hraised h => exact h.started.applications
  | failed hcall hfailed h hsettled => exact hsettled.applications
  | confirmed hcall hsucceeded hobservation h hsettled => exact hsettled.applications

/-! ### Runs -/

/-- One request to the service, which writes and loads manifests with this YAML. -/
def ServiceStep (yaml : ManifestYaml) (db : Registry) (request : Request) (db' : Registry) : Prop :=
  request.service.yaml = yaml ∧ RegistryStep db request db'

theorem readable_step {yaml : ManifestYaml}
    (hyaml : ∀ manifest, (yaml.load (yaml.dump manifest)).isSome = true) {db db' : Registry}
    {request : Request} (h : Readable yaml db) (hstep : ServiceStep yaml db request db') :
    Readable yaml db' := by
  obtain ⟨hservice, rfl⟩ := hstep
  obtain ⟨service, operation⟩ := request
  have hservice : service.yaml = yaml := hservice
  cases operation with
  | create manifest =>
      rw [Request.perform, hservice]
      exact (createApplication_readable _ manifest (hyaml manifest)).finalState h
  | update applicationId manifest =>
      rw [Request.perform, hservice]
      exact (updateApplication_readable _ applicationId manifest (hyaml manifest)).finalState h
  | delete applicationId =>
      exact (deleteApplication_effect service.requester applicationId db).readable h
  | status applicationId surroundings =>
      exact h.of_same (status_effect service surroundings applicationId db).applications
  | action applicationId name surroundings =>
      cases hname : Action.ofName name with
      | none =>
          show Readable yaml (finalState (service.action surroundings applicationId name db))
          rw [action_unknown service surroundings db applicationId hname]
          exact h
      | some action =>
          exact h.of_same
            (action_course service surroundings db applicationId hname).applications

/-- **When the summary agrees with the list.**  It does in every state of every run of requests
none of which enables an application that is persisted as disabled or meets an adapter that reports
`DISABLED`.  What is written as YAML loads. -/
theorem summary_agrees (yaml : ManifestYaml)
    (hyaml : ∀ manifest, (yaml.load (yaml.dump manifest)).isSome = true) (db : Registry)
    (h : Reach (ServiceStep yaml) Consistent {} db) : SummaryAgrees yaml db := by
  have hreadable : Readable yaml db := h.invariant (fun _ _ hrecord => by cases hrecord)
    fun _ _ _ hbefore _ hstep => readable_step hyaml hbefore hstep
  have hagree : ∀ applicationId, NotDisabled db applicationId :=
    h.invariant (fun _ _ hrecord => by cases hrecord)
      fun _ _ _ hbefore hconsistent hstep => notDisabled_step hbefore hconsistent hstep.2
  exact (summaryAgrees_iff hreadable).mpr hagree

/-! ### An application that is created disabled -/

/-- The texts of `ollama` and of `restingOllama` load as what they were. -/
def loadingYaml : ManifestYaml where
  dump := ollamaText
  load text := some (if text = ollamaText ollama then ollama else restingOllama)

def loadingService : LifecycleService := { ollamaService with yaml := loadingYaml }

def createLoading (manifest : ApplicationManifest) : Request := ⟨loadingService, .create manifest⟩

theorem summary_agrees_created : SummaryAgrees loadingYaml ((createLoading ollama).perform {}) := by
  have hconsistent : Consistent {} (createLoading ollama) := trivial
  exact summary_agrees loadingYaml (fun _ => rfl) ((createLoading ollama).perform {})
    (Reach.next Reach.start hconsistent ⟨rfl, rfl⟩)

set_option maxRecDepth 8000 in
/-- An application that is created disabled and then enabled is listed as `DISABLED` and counted
as unknown. -/
theorem summary_disagrees :
    ¬ ∀ yaml : ManifestYaml, (∀ manifest, (yaml.load (yaml.dump manifest)).isSome = true) →
      ∀ db, Reach (ServiceStep yaml) Anyhow {} db → SummaryAgrees yaml db := by
  intro h
  let enable : Request := ⟨loadingService, .update "ollama" ollama⟩
  let db := enable.perform ((createLoading restingOllama).perform {})
  have hyaml : ∀ manifest, (loadingYaml.load (loadingYaml.dump manifest)).isSome = true :=
    fun _ => rfl
  have hcreate : ServiceStep loadingYaml {} (createLoading restingOllama) _ := ⟨rfl, rfl⟩
  have henable : ServiceStep loadingYaml _ enable db := ⟨rfl, rfl⟩
  have hreach : Reach (ServiceStep loadingYaml) Anyhow {} db :=
    Reach.next (Reach.next Reach.start trivial hcreate) trivial henable
  have hreadable : Readable loadingYaml db := fun _ _ _ => rfl
  have hagrees := (summaryAgrees_iff hreadable).mp (h loadingYaml hyaml db hreach) "ollama"
  have hrecord : ∃ record, db.applications.lookup "ollama" = some record ∧
      record.enabled = true := ⟨_, rfl, by decide⟩
  have hstatus : db.persistedStatus "ollama" = .disabled := by decide
  obtain ⟨record, hrecord, henabled⟩ := hrecord
  exact hagrees record hrecord henabled hstatus

end MachineDeck.Lifecycle

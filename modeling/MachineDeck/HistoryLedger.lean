import MachineDeck.HistoryRules
import MachineDeck.Ledgers

/-!
# The history as a ledger

Executions and their audit events, in every interleaving of requests, unit checks and restarts.

* `Balanced` — every finished execution has one audit event, which agrees with it, every other one
  has none, and no event is about an execution that is not there;
* `HistoryGrows` — executions are only added and finished, audit events only added;
* `Ledgered` — both, with the executions of the requests under way still open;
* `Deck`, `Deck.step` — the requests for all applications, over one database;
* `history_append_only` — between any two moments of any interleaving.
-/

namespace MachineDeck.Lifecycle

open ProgramTriple GuardedRuns Ledgers

/-! ### Executions and events -/

/-- An execution that is over. -/
def ExecutionRecord.Over (execution : ExecutionRecord) : Prop :=
  execution.status ≠ .running ∧ execution.finishedAt.isSome = true

/-- An execution that is under way, or whose action never came back. -/
def ExecutionRecord.Open (execution : ExecutionRecord) : Prop :=
  execution.status = .running ∧ execution.finishedAt = none

/-- It is open and has no event, or it is finished and has one. -/
def Accounted (db : Registry) (execution : ExecutionRecord) : Prop :=
  execution.Open ∧ db.eventsOf execution.id = [] ∨ Recorded db execution

structure Balanced (db : Registry) : Prop where
  nodup : (db.executions.map ExecutionRecord.id).Nodup
  accounted : ∀ execution ∈ db.executions, Accounted db execution
  known : ∀ event ∈ db.auditEvents, ∀ id, event.executionId = some id →
    id ∈ db.executions.map ExecutionRecord.id

/-- The later history still has all of the earlier one. -/
structure HistoryGrows (db db' : Registry) : Prop where
  executions : Grows ExecutionRecord.id ExecutionRecord.Over db.executions db'.executions
  auditEvents : db.auditEvents <+: db'.auditEvents

theorem HistoryGrows.refl (db : Registry) : HistoryGrows db db :=
  ⟨Grows.refl _, List.prefix_refl _⟩

theorem HistoryGrows.trans {db db' db'' : Registry} (h : HistoryGrows db db')
    (h' : HistoryGrows db' db'') : HistoryGrows db db'' :=
  ⟨h.executions.trans h'.executions, h.auditEvents.trans h'.auditEvents⟩

/-- The history of `db₀` has grown, it is balanced, and these executions are open in it. -/
structure Ledgered (db₀ : Registry) (flights : Set ExecutionRecord) (db : Registry) : Prop where
  balanced : Balanced db
  grows : HistoryGrows db₀ db
  opened : ∀ execution ∈ flights, execution ∈ db.executions ∧ execution.Open

variable {db₀ db db' : Registry} {flights flights' : Set ExecutionRecord}
  {execution : ExecutionRecord} {service : LifecycleService} {applicationId : String}

theorem Ledgered.mono (h : Ledgered db₀ flights db) (hsub : flights' ⊆ flights) :
    Ledgered db₀ flights' db :=
  ⟨h.balanced, h.grows, fun e he => h.opened e (hsub he)⟩

theorem Ledgered.drop (h : Ledgered db₀ (insert execution flights) db) : Ledgered db₀ flights db :=
  h.mono (Set.subset_insert _ _)

theorem Accounted.of_events (h : Accounted db execution)
    (hevents : db'.eventsOf execution.id = db.eventsOf execution.id) : Accounted db' execution := by
  rcases h with ⟨hopen, hnone⟩ | hrecorded
  · exact Or.inl ⟨hopen, hevents.trans hnone⟩
  · refine Or.inr ⟨hrecorded.finished, hrecorded.finishedAt, ?_⟩
    rw [hevents]
    exact hrecorded.event

/-- An open execution is not over. -/
theorem ExecutionRecord.Open.not_over (h : execution.Open) : ¬ execution.Over :=
  fun hover => hover.1 h.1

/-! ### The operations of the history -/

/-- The executions are the same, and whatever events are new are about none of them. -/
theorem Ledgered.of_executions (h : Ledgered db₀ flights db) {new : List AuditEventRecord}
    (hnew : ∀ event ∈ new, event.executionId = none) (hexecutions : db'.executions = db.executions)
    (haudit : db'.auditEvents = db.auditEvents ++ new) : Ledgered db₀ flights db' := by
  have hevents (id : Uuid) : db'.eventsOf id = db.eventsOf id := by
    have hnone : new.filter (fun event => event.executionId = some id) = [] := by
      refine List.filter_eq_nil_iff.mpr fun event hevent => ?_
      simp [hnew event hevent]
    show db'.auditEvents.filter _ = db.auditEvents.filter _
    rw [haudit, List.filter_append, hnone, List.append_nil]
  refine ⟨⟨?_, fun e he => ?_, fun event hevent id hid => ?_⟩, ⟨?_, ?_⟩, fun e he => ?_⟩
  · rw [hexecutions]
    exact h.balanced.nodup
  · exact (h.balanced.accounted e (hexecutions ▸ he)).of_events (hevents e.id)
  · rw [haudit] at hevent
    rw [hexecutions]
    rcases List.mem_append.mp hevent with hold | hlast
    · exact h.balanced.known event hold id hid
    · rw [hnew event hlast] at hid
      cases hid
  · rw [hexecutions]
    exact h.grows.executions
  · rw [haudit]
    exact h.grows.auditEvents.trans (List.prefix_append _ _)
  · rw [hexecutions]
    exact h.opened e he

/-- Only the history counts. -/
theorem Ledgered.of_same (h : Ledgered db₀ flights db)
    (hexecutions : db'.executions = db.executions)
    (haudit : db'.auditEvents = db.auditEvents) : Ledgered db₀ flights db' :=
  @Ledgered.of_executions db₀ db db' flights h [] (fun _ hevent => nomatch hevent) hexecutions
    (haudit.trans (List.append_nil _).symm)

/-- A new execution is entered. -/
theorem Ledgered.enter (h : Ledgered db₀ flights db) (hopened : Opened db execution db')
    (hunfinished : execution.finishedAt = none) :
    Ledgered db₀ (insert execution flights) db' ∧ execution ∉ flights := by
  have hid : execution.id ∉ db.executions.map ExecutionRecord.id := fun hmem =>
    hopened.fresh (List.mem_append_left _ hmem)
  have hevents (id : Uuid) : db'.eventsOf id = db.eventsOf id := by
    rw [Registry.eventsOf, Registry.eventsOf, hopened.auditEvents]
  have hopen : execution.Open := ⟨hopened.running, hunfinished⟩
  refine ⟨⟨⟨?_, fun e he => ?_, fun event hevent id heq => ?_⟩, ⟨?_, ?_⟩, fun e he => ?_⟩, ?_⟩
  · rw [hopened.executions, List.map_append]
    refine List.nodup_append.mpr ⟨h.balanced.nodup, List.nodup_singleton _, fun a ha b hb => ?_⟩
    rw [List.map_singleton, List.mem_singleton] at hb
    rw [hb]
    exact fun heq => hid (heq ▸ ha)
  · rw [hopened.executions] at he
    rcases List.mem_append.mp he with hold | hnew
    · exact (h.balanced.accounted e hold).of_events (hevents e.id)
    · rw [List.mem_singleton.mp hnew]
      exact Or.inl ⟨hopen, (hevents _).trans (eventsOf_fresh hopened.fresh)⟩
  · rw [hopened.executions, List.map_append]
    rw [hopened.auditEvents] at hevent
    exact List.mem_append_left _ (h.balanced.known event hevent id heq)
  · rw [hopened.executions]
    exact h.grows.executions.trans (Grows.enter _ _)
  · rw [hopened.auditEvents]
    exact h.grows.auditEvents
  · rw [hopened.executions]
    rcases Set.mem_insert_iff.mp he with rfl | he
    · exact ⟨List.mem_append_right _ (List.mem_singleton_self e), hopen⟩
    · exact ⟨List.mem_append_left _ (h.opened e he).1, (h.opened e he).2⟩
  · exact fun hmem => hid (List.mem_map_of_mem (h.opened execution hmem).1)

/-- An open execution is finished, with one audit event about it. -/
theorem Ledgered.close (h : Ledgered db₀ (insert execution flights) db)
    (hnew : execution ∉ flights) {finish : Finish} {finishedAt : Time} {event : AuditEventRecord}
    (hexecutions : db'.executions = db.executions.map fun e =>
      if e.id = execution.id then e.finish finish finishedAt else e)
    (haudit : db'.auditEvents = db.auditEvents ++ [event])
    (hid : event.executionId = some execution.id)
    (hresult : event.result = if finish.succeeded then "success" else "failure") :
    Ledgered db₀ flights db' := by
  obtain ⟨hmem, hopen⟩ := h.opened execution (Set.mem_insert _ _)
  have hunique (e : ExecutionRecord) (he : e ∈ db.executions) (heq : e.id = execution.id) :
      e = execution := List.inj_on_of_nodup_map h.balanced.nodup he hmem heq
  have hover : (execution.finish finish finishedAt).Over := by
    refine ⟨?_, rfl⟩
    show (if finish.succeeded then ExecutionStatus.succeeded else .failed) ≠ .running
    cases finish.succeeded <;> simp
  have hids : db'.executions.map ExecutionRecord.id = db.executions.map ExecutionRecord.id := by
    rw [hexecutions, List.map_map]
    refine List.map_congr_left fun e _ => ?_
    show (if e.id = execution.id then e.finish finish finishedAt else e).id = e.id
    split_ifs <;> rfl
  have hothers (id : Uuid) (hne : id ≠ execution.id) : db'.eventsOf id = db.eventsOf id := by
    show db'.auditEvents.filter _ = db.auditEvents.filter _
    rw [haudit, List.filter_append, List.filter_cons_of_neg (by simp [hid, Ne.symm hne]),
      List.filter_nil, List.append_nil]
  refine ⟨⟨?_, fun e he => ?_, fun other hother id heq => ?_⟩, ⟨?_, ?_⟩, fun e he => ?_⟩
  · rw [hids]
    exact h.balanced.nodup
  · rw [hexecutions, List.mem_map] at he
    obtain ⟨before, hbefore, rfl⟩ := he
    by_cases hsame : before.id = execution.id
    · rw [if_pos hsame, hunique before hbefore hsame]
      have hnone : db.eventsOf execution.id = [] := by
        rcases h.balanced.accounted execution hmem with ⟨-, hnone⟩ | hrecorded
        · exact hnone
        · rcases hrecorded.finished with hstatus | hstatus
          · exact absurd (hopen.1.symm.trans hstatus) (by decide)
          · exact absurd (hopen.1.symm.trans hstatus) (by decide)
      refine Or.inr ⟨?_, rfl, event, ?_, ?_⟩
      · rw [ExecutionRecord.finish]
        cases finish.succeeded <;> simp
      · show db'.auditEvents.filter (fun event => event.executionId = some execution.id) = [event]
        rw [haudit, List.filter_append, List.filter_cons_of_pos (by simp [hid]), List.filter_nil]
        exact congrArg (· ++ [event]) hnone
      · rw [hresult, ExecutionRecord.finish]
        cases finish.succeeded <;> simp
    · rw [if_neg hsame]
      exact (h.balanced.accounted before hbefore).of_events (hothers before.id hsame)
  · rw [hids]
    rw [haudit] at hother
    rcases List.mem_append.mp hother with hold | hlast
    · exact h.balanced.known other hold id heq
    · rw [List.mem_singleton.mp hlast, hid] at heq
      cases heq
      exact List.mem_map_of_mem hmem
  · rw [hexecutions]
    refine h.grows.executions.trans (Grows.settle fun e he heq => ?_)
    rw [hunique e he heq]
    exact ⟨hopen.not_over, hover, rfl⟩
  · rw [haudit]
    exact h.grows.auditEvents.trans (List.prefix_append _ _)
  · obtain ⟨hold, hopen'⟩ := h.opened e (Set.mem_insert_of_mem _ he)
    have hne : e.id ≠ execution.id := fun heq => hnew (hunique e hold heq ▸ he)
    refine ⟨?_, hopen'⟩
    rw [hexecutions, List.mem_map]
    exact ⟨e, hold, if_neg hne⟩

/-! ### The rules -/

/-- This execution is under way, besides the others. -/
def Underway (db₀ : Registry) (flights : Set ExecutionRecord) (execution : ExecutionRecord)
    (db : Registry) : Prop :=
  Ledgered db₀ (insert execution flights) db ∧ execution ∉ flights

theorem newExecution_underway (service : LifecycleService) (applicationId : String)
    (action : Action) :
    Triple (Ledgered db₀ flights) (service.newExecution applicationId action)
      (Underway db₀ flights) (fun _ _ => False) := by
  intro db h
  obtain ⟨execution, db', hrun, hopened⟩ :=
    (newExecution_spec service applicationId action db).returns
  have hunfinished : execution.finishedAt = none := by
    simp only [LifecycleService.newExecution, run_bind, run_uuid4, run_utcNow, run_modify,
      run_pure] at hrun
    cases hrun
    rfl
  rw [hrun]
  exact h.enter hopened hunfinished

/-- The ledger allows what the requests do. -/
theorem ledgered_rules (service : LifecycleService) (db₀ : Registry)
    (flights : Set ExecutionRecord) :
    HistoryRules service (Ledgered db₀ flights) (Underway db₀ flights) where
  quiet := fun _ _ hexecutions haudit h => h.of_same hexecutions haudit
  noted := fun _ event hnone _ h => h.of_executions
    (fun other hother => by rw [List.mem_singleton.mp hother, hnone]) rfl rfl
  underway := fun _ _ _ hexecutions haudit h => ⟨h.1.of_same hexecutions haudit, h.2⟩
  drop := fun h => h.1.drop
  opens := newExecution_underway service
  closes := fun _ _ _ h => h.1.close h.2 rfl rfl rfl rfl

/-! ### Requests under way -/

/-- The executions of the requests that satisfy `p`. -/
def System.begun (sys : System) (p : ℕ → Prop) : Set ExecutionRecord :=
  { execution | ∃ i run, p i ∧ (sys.phases i).run? = some run ∧ run.execution = execution }

/-- The history has grown from `db₀`, and every request under way has an open execution of its
own, as the requests `elsewhere` have. -/
structure System.Tracked (db₀ : Registry) (elsewhere : Set ExecutionRecord) (sys : System) :
    Prop where
  ledgered : Ledgered db₀ (elsewhere ∪ sys.begun fun _ => True) sys.db
  distinct : ∀ i j run run', (sys.phases i).run? = some run → (sys.phases j).run? = some run' →
    run.execution = run'.execution → i = j
  apart : ∀ execution ∈ sys.begun fun _ => True, execution ∉ elsewhere

section Requests

variable {elsewhere : Set ExecutionRecord} {sys sys' : System} {i : ℕ} {run : ActionRun}

theorem begun_subset (sys : System) (i : ℕ) : sys.begun (· ≠ i) ⊆ sys.begun fun _ => True :=
  fun _ ⟨j, run, _, hrun, heq⟩ => ⟨j, run, trivial, hrun, heq⟩

theorem others_subset (elsewhere : Set ExecutionRecord) (sys : System) (i : ℕ) :
    elsewhere ∪ sys.begun (· ≠ i) ⊆ elsewhere ∪ sys.begun fun _ => True :=
  Set.union_subset_union_right elsewhere (begun_subset sys i)

theorem System.Tracked.others (h : sys.Tracked db₀ elsewhere) (i : ℕ) :
    Ledgered db₀ (elsewhere ∪ sys.begun (· ≠ i)) sys.db :=
  h.ledgered.mono (others_subset elsewhere sys i)

/-- A request that is under way, besides the others. -/
theorem System.Tracked.underway (h : sys.Tracked db₀ elsewhere)
    (hrun : (sys.phases i).run? = some run) :
    Underway db₀ (elsewhere ∪ sys.begun (· ≠ i)) run.execution sys.db := by
  have hbegun : run.execution ∈ sys.begun fun _ => True := ⟨i, run, trivial, hrun, rfl⟩
  refine ⟨h.ledgered.mono fun execution hexecution => ?_, fun hmem => ?_⟩
  · rcases Set.mem_insert_iff.mp hexecution with rfl | hother
    · exact Or.inr hbegun
    · exact others_subset elsewhere sys i hother
  · rcases hmem with hmem | ⟨j, run', hne, hrun', heq⟩
    · exact h.apart _ hbegun hmem
    · exact hne (h.distinct j i run' run hrun' hrun heq)

/-- A request that is not under way any more. -/
theorem System.Tracked.idle (h : sys.Tracked db₀ elsewhere) (phase : Phase)
    (hphase : phase.run? = none) (hphases : sys'.phases = Function.update sys.phases i phase)
    (hledgered : Ledgered db₀ (elsewhere ∪ sys.begun (· ≠ i)) sys'.db) :
    sys'.Tracked db₀ elsewhere := by
  have hother {j : ℕ} {run : ActionRun} (hrun : (sys'.phases j).run? = some run) :
      j ≠ i ∧ (sys.phases j).run? = some run := by
    rw [hphases] at hrun
    by_cases hji : j = i
    · rw [hji, Function.update_self, hphase] at hrun
      cases hrun
    · rw [Function.update_of_ne hji] at hrun
      exact ⟨hji, hrun⟩
  have hsub : (sys'.begun fun _ => True) ⊆ sys.begun (· ≠ i) := fun execution hexecution => by
    obtain ⟨j, run, -, hrun, heq⟩ := hexecution
    exact ⟨j, run, (hother hrun).1, (hother hrun).2, heq⟩
  refine ⟨hledgered.mono (Set.union_subset_union_right elsewhere hsub),
    fun j k run run' hrun hrun' heq => ?_, fun execution hexecution => ?_⟩
  · exact h.distinct j k run run' (hother hrun).2 (hother hrun').2 heq
  · exact h.apart execution (begun_subset sys i (hsub hexecution))

/-- A request that is under way now. -/
theorem System.Tracked.busy (h : sys.Tracked db₀ elsewhere) (phase : Phase)
    (hphase : phase.run? = some run) (hphases : sys'.phases = Function.update sys.phases i phase)
    (hunderway : Underway db₀ (elsewhere ∪ sys.begun (· ≠ i)) run.execution sys'.db) :
    sys'.Tracked db₀ elsewhere := by
  have hcases {j : ℕ} {run' : ActionRun} (hrun : (sys'.phases j).run? = some run') :
      j = i ∧ run' = run ∨ j ≠ i ∧ (sys.phases j).run? = some run' := by
    rw [hphases] at hrun
    by_cases hji : j = i
    · rw [hji, Function.update_self, hphase] at hrun
      exact Or.inl ⟨hji, (Option.some.inj hrun).symm⟩
    · rw [Function.update_of_ne hji] at hrun
      exact Or.inr ⟨hji, hrun⟩
  have hbegun {execution : ExecutionRecord} (hexecution : execution ∈ sys'.begun fun _ => True) :
      execution = run.execution ∨ execution ∈ sys.begun (· ≠ i) := by
    obtain ⟨j, run', -, hrun, heq⟩ := hexecution
    rcases hcases hrun with ⟨-, rfl⟩ | ⟨hne, hold⟩
    · exact Or.inl heq.symm
    · exact Or.inr ⟨j, run', hne, hold, heq⟩
  refine ⟨hunderway.1.mono fun execution hexecution => ?_,
    fun j k run₁ run₂ hrun₁ hrun₂ heq => ?_, fun execution hexecution helsewhere => ?_⟩
  · rcases hexecution with helsewhere | hhere
    · exact Set.mem_insert_of_mem _ (Or.inl helsewhere)
    · rcases hbegun hhere with rfl | hother
      · exact Set.mem_insert _ _
      · exact Set.mem_insert_of_mem _ (Or.inr hother)
  · rcases hcases hrun₁ with ⟨rfl, rfl⟩ | ⟨hj, hold₁⟩
    · rcases hcases hrun₂ with ⟨rfl, -⟩ | ⟨hk, hold₂⟩
      · rfl
      · exact absurd (Or.inr ⟨k, run₂, hk, hold₂, heq.symm⟩) hunderway.2
    · rcases hcases hrun₂ with ⟨rfl, rfl⟩ | ⟨hk, hold₂⟩
      · exact absurd (Or.inr ⟨j, run₁, hj, hold₁, heq⟩) hunderway.2
      · exact h.distinct j k run₁ run₂ hold₁ hold₂ heq
  · rcases hbegun hexecution with rfl | hother
    · exact hunderway.2 (Or.inl helsewhere)
    · exact h.apart execution (begun_subset sys i hother) helsewhere

end Requests

/-! ### One event -/

/-- Every event is about a request. -/
theorem subject_of_step {sys sys' : System} {event : Event}
    (hstep : SystemStep service applicationId sys event sys') :
    ∃ i, sys.subject event = some i := by
  cases event with
  | wake =>
    simp only [SystemStep, System.step] at hstep
    split at hstep
    · rename_i i rest _ hqueue
      exact ⟨i, by rw [System.subject, hqueue]; rfl⟩
    · cases hstep
  | status i | arrive i _ | report i _ | preflight i _ | called i _ | confirm i _ => exact ⟨i, rfl⟩

/-- **One event keeps track of the history.** -/
theorem System.Tracked.step {elsewhere : Set ExecutionRecord} {sys sys' : System}
    (h : sys.Tracked db₀ elsewhere) {event : Event}
    (hstep : SystemStep service applicationId sys event sys') : sys'.Tracked db₀ elsewhere := by
  obtain ⟨i, hsubject⟩ := subject_of_step hstep
  have hbefore : (sys.phases i).Holds (Ledgered db₀ (elsewhere ∪ sys.begun (· ≠ i)))
      (Underway db₀ (elsewhere ∪ sys.begun (· ≠ i))) sys.db := by
    unfold Phase.Holds
    cases hrun : (sys.phases i).run? with
    | none => exact h.others i
    | some run => exact h.underway hrun
  obtain ⟨phase, hphases, hafter⟩ :=
    System.step_history hstep hsubject (ledgered_rules service db₀ _) hbefore
  unfold Phase.Holds at hafter
  cases hrun : phase.run? with
  | none =>
    rw [hrun] at hafter
    exact h.idle phase hrun hphases hafter
  | some run =>
    rw [hrun] at hafter
    exact h.busy phase hrun hphases hafter

/-! ### All applications -/

/-- The service with its requests for every application, each application with a lock of its own,
and with one database.  The `db` of a system here is of no account. -/
structure Deck where
  db : Registry := {}
  systems : String → System := fun _ => { db := {} }

inductive DeckEvent where
  | create (manifest : ApplicationManifest)
  | request (applicationId : String) (event : Event)
  | check (checker : UnitChecker) (applicationId : String)
  | restart (checkers : String → UnitChecker) (order : RowOrder)

/-- The requests for one application, over the database. -/
def Deck.at (deck : Deck) (applicationId : String) : System :=
  { deck.systems applicationId with db := deck.db }

/-- What can happen under a service.  A restart checks every unit; nothing is under way any more. -/
def Deck.step (deck : Deck) : LifecycleService × DeckEvent → Option Deck
  | (service, .create manifest) =>
    some { deck with
      db := finalState (createApplication service.yaml service.requester manifest deck.db) }
  | (service, .request applicationId event) =>
    ((deck.at applicationId).step service applicationId event).map fun sys =>
      { db := sys.db, systems := Function.update deck.systems applicationId sys }
  | (_, .check checker applicationId) =>
    some { deck with db := finalState (checkApplicationUnit checker applicationId deck.db) }
  | (_, .restart checkers order) =>
    some { db := finalState (reconcileAllUserUnits checkers order deck.db) }

def DeckStep (deck : Deck) (event : LifecycleService × DeckEvent) (deck' : Deck) : Prop :=
  deck.step event = some deck'

/-- The action that a request for an application has begun. -/
def Deck.run? (deck : Deck) (applicationId : String) (i : ℕ) : Option ActionRun :=
  ((deck.systems applicationId).phases i).run?

/-- The executions of the requests for the applications that satisfy `p`. -/
def Deck.begun (deck : Deck) (p : String → Prop) : Set ExecutionRecord :=
  { execution | ∃ applicationId i run, p applicationId ∧ deck.run? applicationId i = some run ∧
    run.execution = execution }

/-- Every request under way has an open execution of its own. -/
structure Deck.Tracked (db₀ : Registry) (deck : Deck) : Prop where
  ledgered : Ledgered db₀ (deck.begun fun _ => True) deck.db
  distinct : ∀ a b i j run run', deck.run? a i = some run → deck.run? b j = some run' →
    run.execution = run'.execution → a = b ∧ i = j

section Decks

variable {deck deck' : Deck}

theorem Deck.Tracked.at (h : deck.Tracked db₀) (applicationId : String) :
    (deck.at applicationId).Tracked db₀ (deck.begun (· ≠ applicationId)) := by
  refine ⟨h.ledgered.mono fun execution hexecution => ?_,
    fun i j run run' hrun hrun' heq => ?_, fun execution hexecution helsewhere => ?_⟩
  · rcases hexecution with ⟨b, i, run, -, hrun, heq⟩ | ⟨i, run, -, hrun, heq⟩
    · exact ⟨b, i, run, trivial, hrun, heq⟩
    · exact ⟨applicationId, i, run, trivial, hrun, heq⟩
  · exact (h.distinct applicationId applicationId i j run run' hrun hrun' heq).2
  · obtain ⟨i, run, -, hrun, heq⟩ := hexecution
    obtain ⟨b, j, run', hne, hrun', heq'⟩ := helsewhere
    exact hne (h.distinct b applicationId j i run' run hrun' hrun (heq'.trans heq.symm)).1

/-- The requests for one application have moved on. -/
theorem Deck.Tracked.of_at (h : deck.Tracked db₀) {applicationId : String} {sys : System}
    (hsys : sys.Tracked db₀ (deck.begun (· ≠ applicationId))) :
    ({ db := sys.db, systems := Function.update deck.systems applicationId sys } : Deck).Tracked
      db₀ := by
  have hcases {b : String} {i : ℕ} {run : ActionRun}
      (hrun : ((Function.update deck.systems applicationId sys b).phases i).run? = some run) :
      b = applicationId ∧ (sys.phases i).run? = some run ∨
        b ≠ applicationId ∧ deck.run? b i = some run := by
    by_cases hb : b = applicationId
    · rw [hb, Function.update_self] at hrun
      exact Or.inl ⟨hb, hrun⟩
    · rw [Function.update_of_ne hb] at hrun
      exact Or.inr ⟨hb, hrun⟩
  refine ⟨hsys.ledgered.mono fun execution hexecution => ?_,
    fun a b i j run run' hrun hrun' heq => ?_⟩
  · obtain ⟨b, i, run, -, hrun, heq⟩ := hexecution
    rcases hcases hrun with ⟨-, hhere⟩ | ⟨hne, hother⟩
    · exact Or.inr ⟨i, run, trivial, hhere, heq⟩
    · exact Or.inl ⟨b, i, run, hne, hother, heq⟩
  · rcases hcases hrun with ⟨rfl, hhere⟩ | ⟨ha, hother⟩
    · rcases hcases hrun' with ⟨rfl, hhere'⟩ | ⟨hb, hother'⟩
      · exact ⟨rfl, hsys.distinct i j run run' hhere hhere' heq⟩
      · exact absurd ⟨b, j, run', hb, hother', heq.symm⟩
          (hsys.apart run.execution ⟨i, run, trivial, hhere, rfl⟩)
    · rcases hcases hrun' with ⟨rfl, hhere'⟩ | ⟨hb, hother'⟩
      · exact absurd ⟨a, i, run, ha, hother, heq⟩
          (hsys.apart run'.execution ⟨j, run', trivial, hhere', rfl⟩)
      · exact h.distinct a b i j run run' hother hother' heq

/-- With nothing under way, only the database counts. -/
theorem Deck.Tracked.quiet (h : Ledgered db₀ flights db) :
    ({ db := db } : Deck).Tracked db₀ := by
  refine ⟨h.mono fun execution hexecution => ?_, fun a b i j run run' hrun => nomatch hrun⟩
  obtain ⟨a, i, run, -, hrun, -⟩ := hexecution
  cases hrun

/-- **One event of the service keeps track of the history.** -/
theorem Deck.Tracked.step (h : deck.Tracked db₀) {event : LifecycleService × DeckEvent}
    (hstep : DeckStep deck event deck') : deck'.Tracked db₀ := by
  obtain ⟨service, event⟩ := event
  have rules := ledgered_rules service db₀ (deck.begun fun _ => True)
  cases event with
  | create manifest =>
    cases hstep
    exact ⟨(createApplication_noted rules.quiet service.yaml rules.noted manifest).finalState
      h.ledgered, h.distinct⟩
  | request applicationId event =>
    obtain ⟨sys, hsys, rfl⟩ := Option.map_eq_some_iff.mp hstep
    exact h.of_at ((h.at applicationId).step hsys)
  | check checker applicationId =>
    cases hstep
    exact ⟨(checkApplicationUnit_quiet rules.quiet checker applicationId).finalState h.ledgered,
      h.distinct⟩
  | restart checkers order =>
    cases hstep
    have hreconciled : Keeps (Ledgered db₀ (deck.begun fun _ => True))
        (reconcileAllUserUnits checkers order) :=
      Keeps.get_bind fun _ _ => reconcileRecords_quiet rules.quiet checkers _
    exact Deck.Tracked.quiet (hreconciled.finalState h.ledgered)

theorem Deck.Tracked.run (h : deck.Tracked db₀) (hreach : Reach DeckStep Anyhow deck deck') :
    deck'.Tracked db₀ :=
  hreach.invariant h fun _ _ _ hdeck _ hstep => hdeck.step hstep

/-- From here on, the history grows from what it is now. -/
theorem Deck.Tracked.here (h : deck.Tracked db₀) : deck.Tracked deck.db :=
  ⟨⟨h.ledgered.balanced, HistoryGrows.refl _, h.ledgered.opened⟩, h.distinct⟩

/-- Nothing has happened yet. -/
theorem Deck.Tracked.empty : ({} : Deck).Tracked {} := by
  have hnothing : Ledgered {} ∅ {} :=
    ⟨⟨List.nodup_nil, (fun _ h => by cases h), (fun _ h => by cases h)⟩, HistoryGrows.refl _,
      fun _ h => h.elim⟩
  exact Deck.Tracked.quiet hnothing

/-- **The history is append-only and balanced in every interleaving of requests** for any
applications, with unit checks and restarts; the requests under way have open executions of their
own. -/
theorem history_append_only (deck deck' : Deck) (hbefore : Reach DeckStep Anyhow {} deck)
    (hlater : Reach DeckStep Anyhow deck deck') :
    Balanced deck'.db ∧ HistoryGrows deck.db deck'.db ∧
      ∀ a i run, deck'.run? a i = some run →
        run.execution ∈ deck'.db.executions ∧ run.execution.Open ∧
          ∀ b j run', deck'.run? b j = some run' → run'.execution = run.execution →
            b = a ∧ j = i := by
  have hnow := Deck.Tracked.empty.run hbefore
  have hthen := hnow.here.run hlater
  refine ⟨hthen.ledgered.balanced, hthen.ledgered.grows, fun a i run hrun => ?_⟩
  obtain ⟨hmem, hopen⟩ := hthen.ledgered.opened run.execution ⟨a, i, run, trivial, hrun, rfl⟩
  exact ⟨hmem, hopen, fun b j run' hrun' heq => hthen.distinct b a j i run' run hrun' hrun heq⟩

end Decks

/-- The deck after an event that can happen. -/
def Deck.after (deck : Deck) (event : DeckEvent) : Deck :=
  (deck.step (ollamaService, event)).getD deck

theorem deckStep_after {deck : Deck} {event : DeckEvent}
    (h : (deck.step (ollamaService, event)).isSome = true) :
    DeckStep deck (ollamaService, event) (deck.after event) := by
  rw [DeckStep, Deck.after]
  cases hstep : deck.step (ollamaService, event) with
  | none =>
    rw [hstep] at h
    cases h
  | some deck' => rfl

/-- A start of `ollama` that has passed its checks. -/
def starting : Deck :=
  ((({} : Deck).after (.create ollama)).after
    (.request "ollama" (.arrive 0 (.action .start)))).after
      (.request "ollama" (.preflight 0 (.listed [])))

/-- The start succeeds, and a stop begins. -/
def thenStopping : Deck :=
  ((starting.after (.request "ollama" (.called 0 (.returned { succeeded := true })))).after
    (.request "ollama" (.confirm 0 (reported .running)))).after
      (.request "ollama" (.arrive 1 (.action .stop)))

set_option maxRecDepth 8000 in
theorem history_append_only_stop :
    Balanced thenStopping.db ∧ HistoryGrows starting.db thenStopping.db ∧
      ∀ a i run, thenStopping.run? a i = some run →
        run.execution ∈ thenStopping.db.executions ∧ run.execution.Open ∧
          ∀ b j run', thenStopping.run? b j = some run' → run'.execution = run.execution →
            b = a ∧ j = i := by
  have happens : ∀ {deck₀ deck : Deck} {event : DeckEvent}, Reach DeckStep Anyhow deck₀ deck →
      (deck.step (ollamaService, event)).isSome = true →
      Reach DeckStep Anyhow deck₀ (deck.after event) :=
    fun hreach hstep => Reach.next hreach trivial (deckStep_after hstep)
  refine history_append_only starting thenStopping
    (happens (happens (happens Reach.start ?_) ?_) ?_)
    (happens (happens (happens Reach.start ?_) ?_) ?_)
  all_goals decide

end MachineDeck.Lifecycle

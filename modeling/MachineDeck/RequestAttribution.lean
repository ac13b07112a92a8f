import MachineDeck.HistoryLedger
import MachineDeck.SessionLedger

/-!
# Who is behind an audit event

The API in front of the registry: every request passes `requireHttpAuth`, and what it writes to the
history names the administrator who is logged in.

* `Admission` — a request that the guard has let in, with the tables as they were then;
* `Site`, `Site.step` — the sessions, the requests for all applications, and who has made them;
* `Attributed` — every event and every execution has been caused by one of these requesters;
* `history_attributed` — in every interleaving, by requests that were allowed to write.
-/

namespace MachineDeck.Lifecycle

open ProgramTriple GuardedRuns
open Auth (AuthCall AuthenticatedSession Grant HttpError)

/-! ### Attribution -/

/-- The history has been written by these requesters, and an event names who asked for its
execution. -/
structure Attributed (requesters : Set Requester) (db : Registry) : Prop where
  events : ∀ event ∈ db.auditEvents, ∃ requester ∈ requesters, event.By requester
  executions : ∀ execution ∈ db.executions, ∃ requester ∈ requesters,
    execution.requestedBy = requester.actor
  agree : ∀ event ∈ db.auditEvents, ∀ execution ∈ db.executions,
    event.executionId = some execution.id → event.actor = execution.requestedBy

section

variable {requesters requesters' : Set Requester} {db₀ db db' : Registry}
  {flights : Set ExecutionRecord} {execution : ExecutionRecord} {service : LifecycleService}

theorem Attributed.mono (h : Attributed requesters db) (hsub : requesters ⊆ requesters') :
    Attributed requesters' db := by
  refine ⟨fun event hevent => ?_, fun execution hexecution => ?_, h.agree⟩
  · obtain ⟨requester, hmem, hby⟩ := h.events event hevent
    exact ⟨requester, hsub hmem, hby⟩
  · obtain ⟨requester, hmem, hby⟩ := h.executions execution hexecution
    exact ⟨requester, hsub hmem, hby⟩

theorem attributed_onHistory (requesters : Set Requester) : OnHistory (Attributed requesters) := by
  intro db db' hexecutions haudit h
  refine ⟨?_, ?_, ?_⟩
  · rw [haudit]
    exact h.events
  · rw [hexecutions]
    exact h.executions
  · rw [hexecutions, haudit]
    exact h.agree

/-- An event of a requester about no execution. -/
theorem Attributed.note (h : Attributed requesters db) {requester : Requester}
    (hrequester : requester ∈ requesters) {event : AuditEventRecord}
    (hnone : event.executionId = none) (hby : event.By requester) :
    Attributed requesters { db with auditEvents := db.auditEvents ++ [event] } := by
  refine ⟨fun other hother => ?_, h.executions, fun other hother execution hexecution heq => ?_⟩
  · rcases List.mem_append.mp hother with hold | hlast
    · exact h.events other hold
    · rw [List.mem_singleton.mp hlast]
      exact ⟨requester, hrequester, hby⟩
  · rcases List.mem_append.mp hother with hold | hlast
    · exact h.agree other hold execution hexecution heq
    · rw [List.mem_singleton.mp hlast, hnone] at heq
      cases heq

/-- A new execution, which no event is about. -/
theorem Attributed.open (h : Attributed requesters db) (hopened : Opened db execution db')
    {requester : Requester} (hrequester : requester ∈ requesters)
    (hby : execution.requestedBy = requester.actor) : Attributed requesters db' := by
  refine ⟨?_, fun other hother => ?_, fun event hevent other hother heq => ?_⟩
  · rw [hopened.auditEvents]
    exact h.events
  · rw [hopened.executions] at hother
    rcases List.mem_append.mp hother with hold | hlast
    · exact h.executions other hold
    · rw [List.mem_singleton.mp hlast]
      exact ⟨requester, hrequester, hby⟩
  · rw [hopened.auditEvents] at hevent
    rw [hopened.executions] at hother
    rcases List.mem_append.mp hother with hold | hlast
    · exact h.agree event hevent other hold heq
    · rw [List.mem_singleton.mp hlast] at heq
      exact absurd (List.mem_append_right _ (List.mem_filterMap.mpr ⟨event, hevent, heq⟩))
        hopened.fresh

/-- An execution that is finished, with the event about it. -/
theorem Attributed.close (h : Attributed requesters db)
    (hunderway : Underway db₀ flights execution db) (hrequester : service.requester ∈ requesters)
    (hby : execution.requestedBy = service.requester.actor) (finish : Finish) :
    Attributed requesters (finalState (service.finishExecution execution finish db)) := by
  obtain ⟨hmem, -⟩ := hunderway.1.opened execution (Set.mem_insert _ _)
  have hunique {other : ExecutionRecord} (hother : other ∈ db.executions)
      (heq : other.id = execution.id) : other = execution :=
    List.inj_on_of_nodup_map hunderway.1.balanced.nodup hother hmem heq
  have hfinished {other : ExecutionRecord} (finishedAt : Time)
      (hother : other ∈ db.executions.map fun e =>
        if e.id = execution.id then e.finish finish finishedAt else e) :
      ∃ before ∈ db.executions, other.id = before.id ∧ other.requestedBy = before.requestedBy := by
    obtain ⟨before, hbefore, rfl⟩ := List.mem_map.mp hother
    refine ⟨before, hbefore, ?_⟩
    split_ifs
    · exact ⟨rfl, rfl⟩
    · exact ⟨rfl, rfl⟩
  refine ⟨fun event hevent => ?_, fun other hother => ?_, fun event hevent other hother heq => ?_⟩
  · rcases List.mem_append.mp hevent with hold | hlast
    · exact h.events event hold
    · rw [List.mem_singleton.mp hlast]
      exact ⟨service.requester, hrequester, rfl, fun item => List.mem_append_right _⟩
  · obtain ⟨before, hbefore, -, hsame⟩ := hfinished _ hother
    rw [hsame]
    exact h.executions before hbefore
  · obtain ⟨before, hbefore, hid, hsame⟩ := hfinished _ hother
    rw [hsame]
    rw [hid] at heq
    rcases List.mem_append.mp hevent with hold | hlast
    · exact h.agree event hold before hbefore heq
    · rw [List.mem_singleton.mp hlast] at heq ⊢
      have hbeforeId : before.id = execution.id := (Option.some.inj heq).symm
      rw [hunique hbefore hbeforeId]
      exact hby.symm

/-- The ledger with its requesters allows what their requests do. -/
theorem attributed_rules (db₀ : Registry) (flights : Set ExecutionRecord)
    (hrequester : service.requester ∈ requesters) :
    HistoryRules service (fun db => Ledgered db₀ flights db ∧ Attributed requesters db)
      (fun execution db => Underway db₀ flights execution db ∧ Attributed requesters db ∧
        execution.requestedBy = service.requester.actor) where
  quiet := fun db db' hexecutions haudit h =>
    ⟨(ledgered_rules service db₀ flights).quiet db db' hexecutions haudit h.1,
      attributed_onHistory requesters db db' hexecutions haudit h.2⟩
  noted := fun db event hnone hby h =>
    ⟨(ledgered_rules service db₀ flights).noted db event hnone hby h.1,
      h.2.note hrequester hnone hby⟩
  underway := fun execution db db' hexecutions haudit h =>
    ⟨(ledgered_rules service db₀ flights).underway execution db db' hexecutions haudit h.1,
      attributed_onHistory requesters db db' hexecutions haudit h.2.1, h.2.2⟩
  drop := fun h => ⟨h.1.1.drop, h.2.1⟩
  opens := fun applicationId action db h => by
    obtain ⟨execution, db', hrun, hopened⟩ :=
      (newExecution_spec service applicationId action db).returns
    have hnew := newExecution_underway service applicationId action db h.1
    have hby : execution.requestedBy = service.requester.actor := by
      simp only [LifecycleService.newExecution, run_bind, run_uuid4, run_utcNow, run_modify,
        run_pure] at hrun
      cases hrun
      rfl
    rw [hrun] at hnew ⊢
    exact ⟨hnew, h.2.open hopened hrequester hby, hby⟩
  closes := fun execution finish db h =>
    ⟨(ledgered_rules service db₀ flights).closes execution finish db h.1,
      h.2.1.close h.1 hrequester h.2.2 finish⟩

end

/-! ### The API -/

/-- A request that the guard has let in, with the tables and the ledger of sessions as they were. -/
structure Admission where
  tables : Auth.World × List Grant
  request : Auth.Request
  path : String
  authenticated : AuthenticatedSession

/-- `_audit_actor`, with the method and the path. -/
def Admission.requester (admission : Admission) : Requester :=
  ⟨admission.authenticated.administrator.username, some admission.request.method,
    some admission.path⟩

/-- The guard's reasons: a live session, and for a request that writes its CSRF token and a trusted
origin. -/
structure Admission.Authorised (env : Auth.Environment) (admission : Admission) : Prop where
  guard : Auth.requireHttpAuth env admission.tables.1 admission.request =
    .ok admission.authenticated
  accepts : Auth.Accepts env admission.tables.1 admission.tables.2 admission.request
  writes : admission.request.method ∉ Auth.safeMethods

/-- The sessions, the requests under way, and who has made each of them; `status` has no actor. -/
structure Site where
  tables : Auth.World × List Grant
  deck : Deck := {}
  admitted : String → ℕ → Option Requester := fun _ _ => none
  admissions : List Admission := []

/-- The method of the route. -/
def Locked.method : Locked → String
  | .status _ _ => "GET"
  | .action _ => "POST"
  | .update _ => "PUT"
  | .delete => "DELETE"

/-- An event with which a request begins. -/
def Event.begins : Event → Bool
  | .status _ => true
  | .arrive _ _ => true
  | _ => false

inductive SiteEvent where
  | serve (call : AuthCall)
  | create (request : Auth.Request) (path : String) (manifest : ApplicationManifest)
  | write (request : Auth.Request) (path applicationId : String) (i : ℕ) (locked : Locked)
  | status (request : Auth.Request) (applicationId : String) (i : ℕ)
  | check (request : Auth.Request) (applicationId : String) (checker : UnitChecker)
  | proceed (applicationId : String) (event : Event)
  | restart (checkers : String → UnitChecker) (order : RowOrder)

def LifecycleService.for (service : LifecycleService) (requester : Requester) : LifecycleService :=
  { service with requester }

def Site.admit (env : Auth.Environment) (site : Site) (request : Auth.Request) (path : String) :
    Except HttpError Admission :=
  (Auth.requireHttpAuth env site.tables.1 request).map fun authenticated =>
    ⟨site.tables, request, path, authenticated⟩

/-- The request `i` for the application has been admitted. -/
def Site.enroll (site : Site) (applicationId : String) (i : ℕ) (requester : Option Requester) :
    String → ℕ → Option Requester :=
  fun a j => if a = applicationId ∧ j = i then requester else site.admitted a j

section

variable (env : Auth.Environment) (service : LifecycleService)

/-- What can happen next.  A request that the guard refuses changes nothing. -/
def Site.step (site : Site) : SiteEvent → Option Site
  | .serve call =>
    some { site with
      tables := ((Auth.serve env site.tables.1 call).1,
        Auth.observe site.tables.1.now site.tables.2 call (Auth.serve env site.tables.1 call).2) }
  | .create request path manifest =>
    if request.method = "POST" then
      match site.admit env request path with
      | .error _ => some site
      | .ok admission =>
        (site.deck.step (service.for admission.requester, .create manifest)).map fun deck =>
          { site with deck, admissions := site.admissions ++ [admission] }
    else none
  | .write request path applicationId i locked =>
    if request.method = locked.method then
      match site.admit env request path with
      | .error _ => some site
      | .ok admission =>
        (site.deck.step
          (service.for admission.requester, .request applicationId (.arrive i locked))).map
          fun deck =>
            { site with
              deck
              admitted := site.enroll applicationId i (some admission.requester)
              admissions := site.admissions ++ [admission] }
    else none
  | .status request applicationId i =>
    match Auth.requireHttpAuth env site.tables.1 request with
    | .error _ => some site
    | .ok _ =>
      (site.deck.step (service.for {}, .request applicationId (.status i))).map fun deck =>
        { site with deck, admitted := site.enroll applicationId i none }
  | .check request applicationId checker =>
    match Auth.requireHttpAuth env site.tables.1 request with
    | .error _ => some site
    | .ok _ =>
      (site.deck.step (service, .check checker applicationId)).map fun deck => { site with deck }
  | .proceed applicationId event =>
    if event.begins then none
    else
      match (site.deck.at applicationId).subject event with
      | none => none
      | some i =>
        (site.deck.step
          (service.for ((site.admitted applicationId i).getD {}),
            .request applicationId event)).map fun deck => { site with deck }
  | .restart checkers order =>
    (site.deck.step (service, .restart checkers order)).map fun deck =>
      { site with deck, admitted := fun _ _ => none }

/-- One event of the site. -/
def SiteStep (site : Site) (event : SiteEvent) (site' : Site) : Prop :=
  site.step env service event = some site'

end

/-- The requests show texts that the digest tells apart. -/
def SitePresents (texts : Set String) (_ : Site) : SiteEvent → Prop
  | .serve call => call.presents texts
  | .create request _ _ => request.presents texts
  | .write request _ _ _ _ => request.presents texts
  | _ => True

/-! ### What holds in every state -/

/-- The requesters of the requests admitted so far. -/
def Site.requesters (site : Site) : Set Requester :=
  { requester | ∃ admission ∈ site.admissions, admission.requester = requester }

structure Site.Sound (env : Auth.Environment) (site : Site) : Prop where
  agrees : Auth.Agrees env site.tables.1 site.tables.2
  tracked : site.deck.Tracked {}
  attributed : Attributed site.requesters site.deck.db
  authorised : ∀ admission ∈ site.admissions, admission.Authorised env
  known : ∀ a i requester, site.admitted a i = some requester → requester ∈ site.requesters
  asks : ∀ a i, site.admitted a i = none → ((site.deck.systems a).phases i).asks = true
  requested : ∀ a i run, site.deck.run? a i = some run →
    ∃ requester, site.admitted a i = some requester ∧ run.execution.requestedBy = requester.actor

section

variable {env : Auth.Environment} {service : LifecycleService} {texts : Set String}
  {site site' : Site} {applicationId : String} {i : ℕ} {sys' : System} {event : Event}

/-- Where a request for one application has gone to another phase. -/
theorem phases_update {deck : Deck} {phase : Phase}
    (hphases : sys'.phases = Function.update (deck.systems applicationId).phases i phase)
    (b : String) (j : ℕ) :
    (Function.update deck.systems applicationId sys' b).phases j =
      if b = applicationId ∧ j = i then phase else (deck.systems b).phases j := by
  by_cases hb : b = applicationId
  · rw [hb, Function.update_self, hphases]
    by_cases hj : j = i
    · rw [hj, Function.update_self, if_pos ⟨rfl, rfl⟩]
    · rw [Function.update_of_ne hj, if_neg fun h => hj h.2]
  · rw [Function.update_of_ne hb, if_neg fun h => hb h.1]

/-- A request goes on for the requester who has made it. -/
theorem Site.Sound.moves (h : site.Sound env) {requesters : Set Requester}
    (hsub : site.requesters ⊆ requesters) (hrequester : service.requester ∈ requesters)
    (hstep : SystemStep service applicationId (site.deck.at applicationId) event sys')
    (hsubject : (site.deck.at applicationId).subject event = some i)
    (hbefore : ∀ run, site.deck.run? applicationId i = some run →
      run.execution.requestedBy = service.requester.actor) :
    Attributed requesters sys'.db ∧
      ∃ phase : Phase,
        sys'.phases = Function.update (site.deck.systems applicationId).phases i phase ∧
        ∀ run, phase.run? = some run →
          run.execution.requestedBy = service.requester.actor := by
  have htracked := h.tracked.at applicationId
  have hattributed := h.attributed.mono hsub
  have hholds : ((site.deck.at applicationId).phases i).Holds
      (fun db => Ledgered {} (site.deck.begun (· ≠ applicationId) ∪
        (site.deck.at applicationId).begun (· ≠ i)) db ∧ Attributed requesters db)
      (fun execution db => Underway {} (site.deck.begun (· ≠ applicationId) ∪
        (site.deck.at applicationId).begun (· ≠ i)) execution db ∧ Attributed requesters db ∧
          execution.requestedBy = service.requester.actor)
      (site.deck.at applicationId).db := by
    unfold Phase.Holds
    cases hrun : ((site.deck.at applicationId).phases i).run? with
    | none => exact ⟨htracked.others i, hattributed⟩
    | some run => exact ⟨htracked.underway hrun, hattributed, hbefore run hrun⟩
  obtain ⟨phase, hphases, hafter⟩ :=
    System.step_history hstep hsubject (attributed_rules {} _ hrequester) hholds
  unfold Phase.Holds at hafter
  cases hrun : phase.run? with
  | none =>
    rw [hrun] at hafter
    refine ⟨hafter.2, phase, hphases, fun run hrun' => ?_⟩
    rw [hrun] at hrun'
    cases hrun'
  | some run =>
    rw [hrun] at hafter
    refine ⟨hafter.2.1, phase, hphases, fun run' hrun' => ?_⟩
    rw [hrun] at hrun'
    cases hrun'
    exact hafter.2.2

/-- The requesters of a list of admissions. -/
def requestersOf (admissions : List Admission) : Set Requester :=
  { requester | ∃ admission ∈ admissions, admission.requester = requester }

/-- The site with a request in another phase. -/
theorem Site.Sound.advance (h : site.Sound env) {phase : Phase}
    {admitted : String → ℕ → Option Requester} {admissions : List Admission}
    (hkept : site.admissions ⊆ admissions)
    (hauthorised : ∀ admission ∈ admissions, admission.Authorised env)
    (htracked : ({ db := sys'.db
                   systems := Function.update site.deck.systems applicationId sys' } : Deck).Tracked
      {})
    (hphases : sys'.phases = Function.update (site.deck.systems applicationId).phases i phase)
    (hattributed : Attributed (requestersOf admissions) sys'.db)
    (hothers : ∀ b j, ¬ (b = applicationId ∧ j = i) → admitted b j = site.admitted b j)
    (hknown : ∀ requester, admitted applicationId i = some requester →
      requester ∈ requestersOf admissions)
    (hasks : admitted applicationId i = none → phase.asks = true)
    (hrequested : ∀ run, phase.run? = some run → ∃ requester,
      admitted applicationId i = some requester ∧ run.execution.requestedBy = requester.actor) :
    ({ tables := site.tables
       deck := { db := sys'.db, systems := Function.update site.deck.systems applicationId sys' }
       admitted, admissions } : Site).Sound env := by
  refine ⟨h.agrees, htracked, hattributed, hauthorised, fun b j requester hmem => ?_,
    fun b j hnone => ?_, fun b j run hrun => ?_⟩
  · by_cases hhere : b = applicationId ∧ j = i
    · rw [hhere.1, hhere.2] at hmem
      exact hknown requester hmem
    · obtain ⟨admission, hadmission, heq⟩ :=
        h.known b j requester ((hothers b j hhere).symm.trans hmem)
      exact ⟨admission, hkept hadmission, heq⟩
  · show ((Function.update site.deck.systems applicationId sys' b).phases j).asks = true
    rw [phases_update hphases]
    split_ifs with hhere
    · rw [hhere.1, hhere.2] at hnone
      exact hasks hnone
    · exact h.asks b j ((hothers b j hhere).symm.trans hnone)
  · have hrun : ((Function.update site.deck.systems applicationId sys' b).phases j).run? =
        some run := hrun
    rw [phases_update hphases] at hrun
    split_ifs at hrun with hhere
    · rw [hhere.1, hhere.2]
      exact hrequested run hrun
    · obtain ⟨requester, hmem, hby⟩ := h.requested b j run hrun
      exact ⟨requester, (hothers b j hhere).trans hmem, hby⟩

/-- The site with another database. -/
theorem Site.Sound.store (h : site.Sound env) {db : Registry} {admissions : List Admission}
    (hkept : site.admissions ⊆ admissions)
    (hauthorised : ∀ admission ∈ admissions, admission.Authorised env)
    (htracked : ({ site.deck with db } : Deck).Tracked {})
    (hattributed : Attributed (requestersOf admissions) db) :
    ({ site with deck := { site.deck with db }, admissions } : Site).Sound env := by
  refine ⟨h.agrees, htracked, hattributed, hauthorised, fun b j requester hmem => ?_, h.asks,
    h.requested⟩
  obtain ⟨admission, hadmission, heq⟩ := h.known b j requester hmem
  exact ⟨admission, hkept hadmission, heq⟩

theorem requestersOf_append (admissions : List Admission) (admission : Admission) :
    requestersOf admissions ⊆ requestersOf (admissions ++ [admission]) ∧
      admission.requester ∈ requestersOf (admissions ++ [admission]) := by
  refine ⟨fun requester ⟨other, hother, heq⟩ => ⟨other, List.mem_append_left _ hother, heq⟩, ?_⟩
  exact ⟨admission, List.mem_append_right _ (List.mem_singleton_self _), rfl⟩

/-! ### The events of the site -/

theorem Site.admit_ok {request : Auth.Request} {path : String} {admission : Admission}
    (h : site.admit env request path = .ok admission) :
    ∃ authenticated, Auth.requireHttpAuth env site.tables.1 request = .ok authenticated ∧
      admission = ⟨site.tables, request, path, authenticated⟩ := by
  unfold Site.admit at h
  cases hguard : Auth.requireHttpAuth env site.tables.1 request with
  | error refusal =>
    rw [hguard] at h
    cases h
  | ok authenticated =>
    rw [hguard] at h
    cases h
    exact ⟨authenticated, rfl, rfl⟩

/-- What the guard lets in is authorised. -/
theorem Site.Sound.authorise (hd : Auth.Distinguishes env texts) (h : site.Sound env)
    {request : Auth.Request} {path : String} {admission : Admission}
    (hr : request.presents texts) (hmethod : request.method ∉ Auth.safeMethods)
    (hgrant : site.admit env request path = .ok admission) : admission.Authorised env := by
  obtain ⟨authenticated, hguard, rfl⟩ := Site.admit_ok hgrant
  exact ⟨hguard, (h.agrees.requireHttpAuth_iff hd hr).mp ⟨authenticated, hguard⟩, hmethod⟩

theorem authorised_append {admissions : List Admission} {admission : Admission}
    (h : ∀ other ∈ admissions, other.Authorised env) (hadmission : admission.Authorised env) :
    ∀ other ∈ admissions ++ [admission], other.Authorised env := by
  intro other hother
  rcases List.mem_append.mp hother with hold | hlast
  · exact h other hold
  · rwa [List.mem_singleton.mp hlast]

/-- A request for the status begins no action. -/
theorem asks_run {phase : Phase} (h : phase.asks = true) : phase.run? = none := by
  cases phase with
  | checking _ | calling _ | confirming _ _ => cases h
  | absent | waiting _ | querying _ _ | done => rfl

/-- A request that begins was not there before. -/
theorem absent_of_begins {sys : System} (hstep : SystemStep service applicationId sys event sys')
    (hbegins : event.begins = true) (hsubject : sys.subject event = some i) :
    sys.phases i = .absent := by
  cases event with
  | status j =>
    cases hsubject
    simp only [SystemStep, System.step] at hstep
    split at hstep
    · assumption
    · cases hstep
  | arrive j locked =>
    cases hsubject
    simp only [SystemStep, System.step] at hstep
    split at hstep
    · assumption
    · assumption
    · cases hstep
  | wake | report _ _ | preflight _ _ | called _ _ | confirm _ _ => cases hbegins

/-- What arrives with the lock to take writes. -/
theorem arrive_writes {sys : System} {locked : Locked}
    (hstep : SystemStep service applicationId sys (.arrive i locked) sys') :
    locked.method ∉ Auth.safeMethods := by
  cases locked with
  | status manifest state =>
    simp only [SystemStep, System.step] at hstep
    split at hstep
    · cases hstep
    · rename_i hstatus
      exact absurd rfl (hstatus _ _)
    · cases hstep
  | action action =>
    show "POST" ∉ Auth.safeMethods
    decide
  | update manifest =>
    show "PUT" ∉ Auth.safeMethods
    decide
  | delete => decide

/-- A new application. -/
theorem Site.Sound.create (hd : Auth.Distinguishes env texts) (h : site.Sound env)
    {request : Auth.Request} {path : String} {manifest : ApplicationManifest}
    (hshows : request.presents texts)
    (hstep : SiteStep env service site (.create request path manifest) site') :
    site'.Sound env := by
  simp only [SiteStep, Site.step] at hstep
  split_ifs at hstep with hmethod
  cases hgrant : site.admit env request path with
  | error refusal =>
    rw [hgrant] at hstep
    cases hstep
    exact h
  | ok admission =>
    rw [hgrant] at hstep
    obtain ⟨deck, hdeck, rfl⟩ := Option.map_eq_some_iff.mp hstep
    obtain ⟨hsub, hmem⟩ := requestersOf_append site.admissions admission
    have hwrites : request.method ∉ Auth.safeMethods := by
      rw [hmethod]
      decide
    have htracked : deck.Tracked {} := h.tracked.step hdeck
    cases hdeck
    refine h.store (List.subset_append_left _ _)
      (authorised_append h.authorised (h.authorise hd hshows hwrites hgrant)) htracked ?_
    exact (createApplication_noted (attributed_onHistory _) _
      (fun _ _ hnone hby hdb => hdb.note hmem hnone hby) manifest).finalState
        (h.attributed.mono hsub)

/-- An action, an update or a deletion begins. -/
theorem Site.Sound.write (hd : Auth.Distinguishes env texts) (h : site.Sound env)
    {request : Auth.Request} {path : String} {locked : Locked}
    (hshows : request.presents texts)
    (hstep : SiteStep env service site (.write request path applicationId i locked) site') :
    site'.Sound env := by
  simp only [SiteStep, Site.step] at hstep
  split_ifs at hstep with hmethod
  cases hgrant : site.admit env request path with
  | error refusal =>
    rw [hgrant] at hstep
    cases hstep
    exact h
  | ok admission =>
    rw [hgrant] at hstep
    obtain ⟨deck, hdeck, rfl⟩ := Option.map_eq_some_iff.mp hstep
    obtain ⟨hsub, hmem⟩ := requestersOf_append site.admissions admission
    have htracked : deck.Tracked {} := h.tracked.step hdeck
    obtain ⟨sys', hsys, rfl⟩ := Option.map_eq_some_iff.mp hdeck
    have hwrites : request.method ∉ Auth.safeMethods := hmethod ▸ arrive_writes hsys
    have habsent : ∀ run, site.deck.run? applicationId i = some run →
        run.execution.requestedBy = (service.for admission.requester).requester.actor := by
      intro run hrun
      have hphase : (site.deck.at applicationId).phases i = .absent :=
        absent_of_begins hsys rfl rfl
      have hrun : ((site.deck.at applicationId).phases i).run? = some run := hrun
      rw [hphase] at hrun
      cases hrun
    obtain ⟨hattributed, phase, hphases, hrequested⟩ := h.moves hsub hmem hsys rfl habsent
    have hhere : site.enroll applicationId i (some admission.requester) applicationId i =
        some admission.requester := if_pos ⟨rfl, rfl⟩
    refine h.advance (List.subset_append_left _ _)
      (authorised_append h.authorised (h.authorise hd hshows hwrites hgrant)) htracked hphases
      hattributed (fun b j hne => if_neg hne) (fun requester hsome => ?_) (fun hnone => ?_)
      fun run hrun => ⟨_, hhere, hrequested run hrun⟩
    · rw [hhere] at hsome
      cases hsome
      exact hmem
    · rw [hhere] at hnone
      cases hnone

/-- A `status` begins. -/
theorem Site.Sound.status (h : site.Sound env)
    {request : Auth.Request}
    (hstep : SiteStep env service site (.status request applicationId i) site') :
    site'.Sound env := by
  simp only [SiteStep, Site.step] at hstep
  cases hguard : Auth.requireHttpAuth env site.tables.1 request with
  | error refusal =>
    rw [hguard] at hstep
    cases hstep
    exact h
  | ok authenticated =>
    rw [hguard] at hstep
    obtain ⟨deck, hdeck, rfl⟩ := Option.map_eq_some_iff.mp hstep
    have htracked : deck.Tracked {} := h.tracked.step hdeck
    obtain ⟨sys', hsys, rfl⟩ := Option.map_eq_some_iff.mp hdeck
    have habsent := absent_of_begins hsys rfl rfl
    obtain ⟨phase, hasks, hphases, hquiet⟩ :=
      System.status_history hsys rfl (habsent ▸ rfl) fun _ _ => nofun
    have hhere : site.enroll applicationId i none applicationId i = none := if_pos ⟨rfl, rfl⟩
    refine h.advance (List.Subset.refl _) h.authorised htracked hphases
      (hquiet _ (attributed_onHistory _) h.attributed) (fun b j hne => if_neg hne)
      (fun requester hsome => ?_) (fun _ => hasks) fun run hrun => ?_
    · rw [hhere] at hsome
      cases hsome
    · rw [asks_run hasks] at hrun
      cases hrun

/-- A check of a unit. -/
theorem Site.Sound.check (h : site.Sound env)
    {request : Auth.Request} {checker : UnitChecker}
    (hstep : SiteStep env service site (.check request applicationId checker) site') :
    site'.Sound env := by
  simp only [SiteStep, Site.step] at hstep
  cases hguard : Auth.requireHttpAuth env site.tables.1 request with
  | error refusal =>
    rw [hguard] at hstep
    cases hstep
    exact h
  | ok authenticated =>
    rw [hguard] at hstep
    obtain ⟨deck, hdeck, rfl⟩ := Option.map_eq_some_iff.mp hstep
    have htracked : deck.Tracked {} := h.tracked.step hdeck
    cases hdeck
    exact h.store (List.Subset.refl _) h.authorised htracked
      ((checkApplicationUnit_quiet (attributed_onHistory _) checker applicationId).finalState
        h.attributed)

/-- A request goes on. -/
theorem Site.Sound.proceed (h : site.Sound env)
    (hstep : SiteStep env service site (.proceed applicationId event) site') : site'.Sound env := by
  simp only [SiteStep, Site.step] at hstep
  split_ifs at hstep with hbegins
  cases hsubject : (site.deck.at applicationId).subject event with
  | none =>
    rw [hsubject] at hstep
    cases hstep
  | some i =>
    rw [hsubject] at hstep
    obtain ⟨deck, hdeck, rfl⟩ := Option.map_eq_some_iff.mp hstep
    have htracked : deck.Tracked {} := h.tracked.step hdeck
    obtain ⟨sys', hsys, rfl⟩ := Option.map_eq_some_iff.mp hdeck
    cases hadmitted : site.admitted applicationId i with
    | none =>
      -- without a requester it is a request for the status
      obtain ⟨phase, hasks, hphases, hquiet⟩ :=
        System.status_history hsys hsubject (h.asks applicationId i hadmitted)
          fun _ _ harrive => by
            rw [harrive] at hbegins
            exact hbegins rfl
      refine h.advance (List.Subset.refl _) h.authorised htracked hphases
        (hquiet _ (attributed_onHistory _) h.attributed) (fun _ _ _ => rfl)
        (h.known applicationId i) (fun _ => hasks) fun run hrun => ?_
      rw [asks_run hasks] at hrun
      cases hrun
    | some requester =>
      rw [hadmitted] at hsys
      have hbefore : ∀ run, site.deck.run? applicationId i = some run →
          run.execution.requestedBy = (service.for requester).requester.actor := by
        intro run hrun
        obtain ⟨other, hother, hby⟩ := h.requested applicationId i run hrun
        rw [hadmitted] at hother
        cases hother
        exact hby
      obtain ⟨hattributed, phase, hphases, hrequested⟩ :=
        h.moves (Set.Subset.refl _) (h.known applicationId i requester hadmitted) hsys hsubject
          hbefore
      refine h.advance (List.Subset.refl _) h.authorised htracked hphases hattributed
        (fun _ _ _ => rfl) (h.known applicationId i) (fun hnone => ?_)
        fun run hrun => ⟨requester, hadmitted, hrequested run hrun⟩
      rw [hadmitted] at hnone
      cases hnone

/-- The service starts again. -/
theorem Site.Sound.restart (h : site.Sound env)
    {checkers : String → UnitChecker} {order : RowOrder}
    (hstep : SiteStep env service site (.restart checkers order) site') : site'.Sound env := by
  simp only [SiteStep, Site.step] at hstep
  obtain ⟨deck, hdeck, rfl⟩ := Option.map_eq_some_iff.mp hstep
  have htracked : deck.Tracked {} := h.tracked.step hdeck
  cases hdeck
  have hreconciled : Keeps (Attributed site.requesters) (reconcileAllUserUnits checkers order) :=
    Keeps.get_bind fun _ _ => reconcileRecords_quiet (attributed_onHistory _) checkers _
  exact ⟨h.agrees, htracked, hreconciled.finalState h.attributed, h.authorised,
    fun _ _ _ hnone => (nomatch hnone), fun _ _ _ => rfl, fun _ _ _ hrun => (nomatch hrun)⟩

/-- One event of the site, by what it does to the requests and to the history. -/
theorem Site.Sound.step (hd : Auth.Distinguishes env texts) (h : site.Sound env) {event : SiteEvent}
    (hshows : SitePresents texts site event) (hstep : SiteStep env service site event site') :
    site'.Sound env := by
  cases event with
  | serve call =>
    cases hstep
    exact ⟨(h.agrees.serve hd hshows).1, h.tracked, h.attributed, h.authorised, h.known, h.asks,
      h.requested⟩
  | create request path manifest => exact Site.Sound.create hd h hshows hstep
  | write request path applicationId i locked => exact Site.Sound.write hd h hshows hstep
  | status request applicationId i => exact h.status hstep
  | check request applicationId checker => exact h.check hstep
  | proceed applicationId event => exact h.proceed hstep
  | restart checkers order => exact h.restart hstep

/-- Nothing has happened, and nobody is logged in. -/
theorem Site.Sound.empty {w₀ : Auth.World} (hempty : w₀.db.authSessions = []) :
    ({ tables := (w₀, []) } : Site).Sound env where
  agrees := ⟨hempty, by simp, by simp, List.nodup_nil, List.nodup_nil⟩
  tracked := Deck.Tracked.empty
  attributed := ⟨fun _ h => (nomatch h), fun _ h => (nomatch h), fun _ h => nomatch h⟩
  authorised := fun _ h => nomatch h
  known := fun _ _ _ h => nomatch h
  asks := fun _ _ _ => rfl
  requested := fun _ _ _ h => nomatch h

end

/-! ### The first administrator creates and starts an application -/

/-- The site after an event that can happen. -/
def Site.after (site : Site) (event : SiteEvent) : Site :=
  (site.step Auth.plainEnvironment ollamaService event).getD site

theorem siteStep_after {site : Site} {event : SiteEvent}
    (h : (site.step Auth.plainEnvironment ollamaService event).isSome = true) :
    SiteStep Auth.plainEnvironment ollamaService site event (site.after event) := by
  rw [SiteStep, Site.after]
  cases hstep : site.step Auth.plainEnvironment ollamaService event with
  | none =>
    rw [hstep] at h
    cases h
  | some site' => rfl

def firstStart : Site :=
  ((({ tables := ({}, []) } : Site).after (.serve Auth.firstSetup)).after
    (.create Auth.firstWrite "/api/v1/applications" ollama)).after
      (.write Auth.firstWrite "/api/v1/applications/ollama/start" "ollama" 0 (.action .start))

end MachineDeck.Lifecycle

import MachineDeck.AuditActions
import MachineDeck.AuditPages
import MachineDeck.Traversals

/-!
# How an event is presented

`AuditService._map_many` turns the records of a page into responses, and `AuditService.get` a
single one.  The names of applications and the executions that the events refer to are looked up
for all records at once and joined back.

* `mapMany`, `respond` — the responses, and each of them;
* `listEvents`, `get` — a page of responses, and the response to an id;
* `named_all`, `executed_all` — what the join gives one record among the others;
* `listed_iff`, `list_get_iff` — a page shows an event as `get` does exactly when no event borrows a name.
-/

namespace MachineDeck.Audit

open AuditRedaction JsonDump
open IsoTime (DateTime Stamp)
open JsonText (Decimal Json member?)

/-! ### Tables -/

/-- A row of `applications`. -/
structure ApplicationRow where
  id : String
  name : String

/-- A row of `executions`. -/
structure ExecutionRow where
  id : String
  action : String
  status : String
  startedAt : Option DateTime
  finishedAt : Option DateTime
  errorCode : Option String

/-- What a session sees; `id` is the primary key of every table. -/
structure Database where
  events : AuditTable
  applications : List ApplicationRow
  applicationIds : (applications.map (·.id)).Nodup
  executions : List ExecutionRow
  executionIds : (executions.map (·.id)).Nodup

/-- The rows whose ids are asked for, in a dictionary by their ids. -/
def byId {α β : Type} (id : α → String) (value : α → β) (rows : List α) (ids : List String) :
    List (String × β) :=
  (rows.filter fun row => ids.contains (id row)).map fun row => (id row, value row)

/-! ### Responses -/

/-- Besides Python and the redaction: which numbers that are no integers are not zero. -/
structure AuditHost where
  python : Python
  platform : AuditPlatform
  nonzero : Decimal → Bool

def truthy (host : AuditHost) : Json → Bool
  | .null => false
  | .bool value => value
  | .int value => decide (value ≠ 0)
  | .decimal value => host.nonzero value
  | .str text => decide (text ≠ "")
  | .arr items => !items.isEmpty
  | .obj members => !members.isEmpty

structure AuditActor where
  type : String
  id : String
  deriving DecidableEq, Repr

def actorFor (value : String) : AuditActor :=
  let actorType :=
    if value = "anonymous" then "anonymous"
    else if value ∈ ["phase1-api", "system", "scheduler"] then "system"
    else if value ≠ "" then "administrator"
    else "unknown"
  ⟨actorType, if value ≠ "" then value else "unknown"⟩

structure AuditTarget where
  type : String
  id : String
  name : Option String
  deriving DecidableEq, Repr

structure AuditRequest where
  method : Option String
  path : Option String
  deriving DecidableEq, Repr

structure AuditEventResponse where
  id : String
  timestamp : Stamp
  actor : AuditActor
  category : AuditCategory
  action : String
  rawAction : String
  result : String
  target : AuditTarget
  executionId : Option String
  execution : Option ExecutionRow
  request : Option AuditRequest
  details : List (String × Json)

/-- What leaves the service instead of responses; a response that its model refuses raises. -/
inductive ServiceError where
  | list (error : ListError)
  | validation
  deriving DecidableEq, Repr

/-- The sanitised details with all their members. -/
def sanitizedDetails (platform : AuditPlatform) (r : AuditEventRecord) : List (String × Json) :=
  match sanitizeAuditDetails platform (some r.detailsJson) with
  | .obj members => members
  | _ => []

def executionId (host : AuditHost) (r : AuditEventRecord) : Option String :=
  ((member? (sanitizedDetails host.platform r) "execution_id").filter (truthy host)).map
    (pyStr host.python)

def safeMethods : List String := ["GET", "POST", "PUT", "PATCH", "DELETE"]

def safeMethod (host : AuditHost) : Option Json → Option String
  | some (.str method) => some (host.python.upper method) |>.filter safeMethods.contains
  | _ => none

def safePath : Option Json → Option String
  | some (.str path) =>
    if startsWith path "/api/v1/" then
      some (String.ofList ((path.toList.takeWhile (· ≠ '?')).take 500))
    else none
  | _ => none

/-- The request is read from the details as they are stored. -/
def requestOf (host : AuditHost) (r : AuditEventRecord) : Option AuditRequest :=
  match member? r.detailsJson "request" with
  | some (.obj data) => some ⟨safeMethod host (member? data "method"), safePath (member? data "path")⟩
  | _ => none

/-- A field that holds text or nothing. -/
def optionalText : Option Json → Except ServiceError (Option String)
  | none => .ok none
  | some .null => .ok none
  | some (.str text) => .ok (some text)
  | some _ => .error .validation

/-- `applications.get(record.target_id) or target_name`. -/
def shownName (host : AuditHost) (applications : List (String × String)) (r : AuditEventRecord) :
    Option Json :=
  match (lastValue applications r.targetId).filter (· ≠ "") with
  | some name => some (.str name)
  | none => member? (sanitizedDetails host.platform r) "target_name"

def respond (host : AuditHost) (applications : List (String × String))
    (executions : List (String × ExecutionRow)) (r : AuditEventRecord) :
    Except ServiceError AuditEventResponse := do
  let details := shownDetails host.platform r
  let execution := (executionId host r).bind (lastValue executions)
  let name ← optionalText (shownName host applications r)
  return {
    id := r.id.val
    timestamp := aware (loaded r.createdAt)
    actor := actorFor r.actor
    category := categoryFor r.action r.targetType
    action := normalizedAction r details
    rawAction := r.action
    result := r.result
    target := ⟨r.targetType, r.targetId, name⟩
    executionId := executionId host r
    execution := execution
    request := requestOf host r
    details := details }

/-- The ids of applications that the records name. -/
def applicationTargets (records : List AuditEventRecord) : List String :=
  (records.filter (·.targetType = "application")).map (·.targetId)

def applicationNames (db : Database) (records : List AuditEventRecord) : List (String × String) :=
  byId ApplicationRow.id ApplicationRow.name db.applications (applicationTargets records)

def linkedExecutions (host : AuditHost) (db : Database) (records : List AuditEventRecord) :
    List (String × ExecutionRow) :=
  byId ExecutionRow.id (fun row => row) db.executions (records.filterMap (executionId host))

def mapMany (host : AuditHost) (db : Database) (records : List AuditEventRecord) :
    Except ServiceError (List AuditEventResponse) :=
  records.mapM (respond host (applicationNames db records) (linkedExecutions host db records))

structure AuditResponsePage where
  events : List AuditEventResponse
  hasMore : Bool
  nextCursor : Option String

/-- `AuditService.list`. -/
def listEvents (host : AuditHost) (db : Database) (filters : AuditFilters) :
    Except ServiceError AuditResponsePage := do
  let page ← (list host.python db.events filters).mapError .list
  let events ← mapMany host db page.events
  return ⟨events, page.hasMore, page.nextCursor⟩

def eventNotFound : ServiceError :=
  .list (.query ⟨"AUDIT_EVENT_NOT_FOUND", "Audit event not found"⟩)

/-- `AuditService.get`; what one record becomes is the first and only response. -/
def get (host : AuditHost) (db : Database) (eventId : String) :
    Except ServiceError AuditEventResponse :=
  match db.events.rows.find? fun r => r.id.val == eventId with
  | none => .error eventNotFound
  | some r => do
    let responses ← mapMany host db [r]
    match responses with
    | response :: _ => return response
    | [] => .error eventNotFound

/-! ### The join -/

/-- A row is found in the dictionary exactly when its id was asked for. -/
theorem lastValue_byId {α β : Type} (id : α → String) (value : α → β) (rows : List α)
    (ids : List String) (key : String) :
    lastValue (byId id value rows ids) key =
      if key ∈ ids then lastValue (rows.map fun row => (id row, value row)) key else none := by
  induction rows with
  | nil => simp [byId, lastValue]
  | cons row rows ih =>
      rw [byId] at ih ⊢
      rw [List.map_cons, lastValue]
      by_cases hrow : id row ∈ ids
      · rw [List.filter_cons_of_pos (by simpa using hrow), List.map_cons, lastValue, ih]
        by_cases hkey : key ∈ ids
        · rw [if_pos hkey, if_pos hkey]
        · have hne : id row ≠ key := fun heq => hkey (heq ▸ hrow)
          rw [if_neg hkey, if_neg hkey]
          exact if_neg hne
      · rw [List.filter_cons_of_neg (by simpa using hrow), ih]
        by_cases hkey : key ∈ ids
        · have hne : id row ≠ key := fun heq => hrow (heq ▸ hkey)
          rw [if_pos hkey, if_pos hkey, if_neg hne]
          cases lastValue (rows.map fun row => (id row, value row)) key <;> rfl
        · rw [if_neg hkey, if_neg hkey]

/-- The name of an application, as the table has it. -/
def applicationName (db : Database) (id : String) : Option String :=
  lastValue (db.applications.map fun row => (row.id, row.name)) id

theorem named_all (db : Database) (records : List AuditEventRecord) (id : String) :
    lastValue (applicationNames db records) id =
      if id ∈ applicationTargets records then applicationName db id else none :=
  lastValue_byId ApplicationRow.id ApplicationRow.name db.applications _ id

/-- An event of an application asks for its own name. -/
theorem target_mem {records : List AuditEventRecord} {r : AuditEventRecord} (hr : r ∈ records)
    (htype : r.targetType = "application") : r.targetId ∈ applicationTargets records :=
  List.mem_map_of_mem (List.mem_filter.mpr ⟨hr, decide_eq_true htype⟩)

theorem target_single {r : AuditEventRecord} :
    r.targetId ∈ applicationTargets [r] ↔ r.targetType = "application" := by
  constructor
  · intro h
    obtain ⟨a, ha, -⟩ := List.mem_map.mp h
    obtain ⟨hmem, htype⟩ := List.mem_filter.mp ha
    rw [List.mem_singleton.mp hmem] at htype
    exact of_decide_eq_true htype
  · exact target_mem (List.mem_singleton.mpr rfl)

/-- Of an execution no record learns more from the others. -/
theorem executed_all (host : AuditHost) (db : Database) {records : List AuditEventRecord}
    {r : AuditEventRecord} (hr : r ∈ records) :
    (executionId host r).bind (lastValue (linkedExecutions host db records)) =
      (executionId host r).bind (lastValue (db.executions.map fun row => (row.id, row))) := by
  cases hid : executionId host r with
  | none => rfl
  | some id =>
      have hmem : id ∈ records.filterMap (executionId host) :=
        List.mem_filterMap.mpr ⟨r, hr, hid⟩
      rw [Option.bind_some, Option.bind_some]
      exact (lastValue_byId ExecutionRow.id (fun row => row) db.executions _ id).trans
        (if_pos hmem)

/-! ### One event among others -/

/-- The event shows no name that only another event of the page asks for: it is an application's,
no application event of the page has its target, or the application's name is the one it shows
by itself, or there is none. -/
def OwnName (host : AuditHost) (db : Database) (records : List AuditEventRecord)
    (r : AuditEventRecord) : Prop :=
  r.targetType = "application" ∨ r.targetId ∉ applicationTargets records ∨
  ∀ name, applicationName db r.targetId = some name → name ≠ "" →
    member? (sanitizedDetails host.platform r) "target_name" = some (.str name)

theorem optionalText_some {value : Option Json} {text : String} :
    optionalText value = .ok (some text) ↔ value = some (.str text) := by
  constructor
  · intro h
    unfold optionalText at h
    split at h <;> cases h
    rfl
  · rintro rfl
    rfl

/-- The name is the same alone and among the others exactly when it is not borrowed. -/
theorem ownName_iff (host : AuditHost) (db : Database) {records : List AuditEventRecord}
    {r : AuditEventRecord} (hr : r ∈ records) :
    optionalText (shownName host (applicationNames db [r]) r) =
        optionalText (shownName host (applicationNames db records) r) ↔
      OwnName host db records r := by
  rw [shownName, shownName, named_all, named_all]
  by_cases htype : r.targetType = "application"
  · rw [if_pos (target_single.mpr htype), if_pos (target_mem hr htype)]
    exact iff_of_true rfl (Or.inl htype)
  rw [if_neg fun h => htype (target_single.mp h)]
  by_cases htarget : r.targetId ∈ applicationTargets records
  · rw [if_pos htarget]
    cases hname : applicationName db r.targetId with
    | none =>
        refine iff_of_true rfl (Or.inr (Or.inr fun name hname' => ?_))
        rw [hname] at hname'
        cases hname'
    | some name =>
        by_cases hempty : name = ""
        · rw [Option.filter_some_neg (by simpa using hempty)]
          refine iff_of_true rfl (Or.inr (Or.inr fun name' hname' hne => ?_))
          rw [hname] at hname'
          cases hname'
          exact absurd hempty hne
        · rw [Option.filter_some_pos (by simpa using hempty)]
          show optionalText (member? (sanitizedDetails host.platform r) "target_name") =
            .ok (some name) ↔ _
          rw [optionalText_some]
          constructor
          · intro h
            refine Or.inr (Or.inr fun name' hname' _ => ?_)
            rw [hname] at hname'
            cases hname'
            exact h
          · rintro (h | h | h)
            · exact absurd h htype
            · exact absurd htarget h
            · exact h name hname hempty
  · rw [if_neg htarget]
    exact iff_of_true rfl (Or.inr (Or.inl htarget))

theorem respond_iff (host : AuditHost) (db : Database) {records : List AuditEventRecord}
    {r : AuditEventRecord} (hr : r ∈ records) {response : AuditEventResponse}
    (h : respond host (applicationNames db records) (linkedExecutions host db records) r =
      .ok response) :
    respond host (applicationNames db [r]) (linkedExecutions host db [r]) r = .ok response ↔
      OwnName host db records r := by
  rw [← ownName_iff host db hr]
  rw [respond, executed_all host db hr] at h
  rw [respond, executed_all host db (List.mem_singleton.mpr rfl : r ∈ [r])]
  obtain ⟨name, hname, h⟩ := Traversals.bind_ok h
  cases h
  rw [hname]
  constructor
  · intro hsingle
    obtain ⟨name', hname', hsingle⟩ := Traversals.bind_ok hsingle
    have htarget := congrArg AuditEventResponse.target (Except.ok.inj hsingle)
    simp only [AuditTarget.mk.injEq, true_and] at htarget
    rw [hname', htarget]
  · intro hsame
    rw [hsame]
    rfl

/-! ### A page and its events -/

theorem list_rows {py : Python} {db : AuditTable} {filters : AuditFilters} {page : AuditEventPage}
    (h : list py db filters = .ok page) {r : AuditEventRecord} (hr : r ∈ page.events) :
    r ∈ db.rows := by
  obtain ⟨_, -, h⟩ := Traversals.bind_ok h
  obtain ⟨_, -, h⟩ := Traversals.bind_ok h
  cases h
  have hsorted := List.mem_of_mem_take (List.mem_of_mem_take hr)
  exact List.mem_of_mem_filter ((List.mem_insertionSort _).mp hsorted)

/-- The row of an id is the one that `get` presents, alone. -/
theorem get_eq (host : AuditHost) (db : Database) {r : AuditEventRecord}
    (hr : r ∈ db.events.rows) :
    get host db r.id.val =
      respond host (applicationNames db [r]) (linkedExecutions host db [r]) r := by
  have hfound : db.events.rows.find? (fun row => row.id.val == r.id.val) = some r := by
    cases hfind : db.events.rows.find? (fun row => row.id.val == r.id.val) with
    | none => exact absurd (beq_self_eq_true r.id.val) (List.find?_eq_none.mp hfind r hr)
    | some row =>
        have hid : row.id.val = r.id.val := by simpa using List.find?_some hfind
        rw [List.inj_on_of_nodup_map db.events.ids (List.mem_of_find?_eq_some hfind) hr hid]
  rw [get, hfound]
  simp only [mapMany, List.mapM_cons, List.mapM_nil]
  cases respond host (applicationNames db [r]) (linkedExecutions host db [r]) r <;> rfl

/-- What a page shows of the rows it was made from. -/
theorem listed_iff (host : AuditHost) (db : Database) (filters : AuditFilters)
    {rows : AuditEventPage} {page : AuditResponsePage}
    (hrows : list host.python db.events filters = .ok rows)
    (hpage : listEvents host db filters = .ok page) :
    (∀ response ∈ page.events, get host db response.id = .ok response) ↔
      ∀ r ∈ rows.events, OwnName host db rows.events r := by
  have hresponses : mapMany host db rows.events = .ok page.events := by
    rw [listEvents, hrows] at hpage
    obtain ⟨shown, hshown, hpage⟩ := Traversals.bind_ok hpage
    cases hshown
    obtain ⟨responses, hresponses, hpage⟩ := Traversals.bind_ok hpage
    cases hpage
    exact hresponses
  have hstep (r : AuditEventRecord) (hr : r ∈ rows.events) (response : AuditEventResponse)
      (h : respond host (applicationNames db rows.events)
        (linkedExecutions host db rows.events) r = .ok response) :
      get host db response.id = .ok response ↔ OwnName host db rows.events r := by
    have hid : response.id = r.id.val := by
      obtain ⟨name, -, h⟩ := Traversals.bind_ok h
      cases h
      rfl
    rw [hid, get_eq host db (list_rows hrows hr)]
    exact respond_iff host db hr h
  constructor
  · intro hall r hr
    obtain ⟨response, hmem, hresponse⟩ := Traversals.image_of_mapM hresponses hr
    exact (hstep r hr response hresponse).mp (hall response hmem)
  · intro hown response hmem
    obtain ⟨r, hr, hresponse⟩ := Traversals.mem_of_mapM hresponses hmem
    exact (hstep r hr response hresponse).mpr (hown r hr)

/-- A page shows every event as `get` does exactly when none of its events borrows the name of an
application from another. -/
theorem list_get_iff (host : AuditHost) (db : Database) (filters : AuditFilters)
    {page : AuditResponsePage} (hpage : listEvents host db filters = .ok page) :
    (∀ response ∈ page.events, get host db response.id = .ok response) ↔
      ∀ rows, list host.python db.events filters = .ok rows →
        ∀ r ∈ rows.events, OwnName host db rows.events r := by
  constructor
  · intro hall rows hrows
    exact (listed_iff host db filters hrows hpage).mp hall
  · intro hown
    obtain ⟨rows, hrows⟩ : ∃ rows, list host.python db.events filters = .ok rows := by
      cases hcase : list host.python db.events filters with
      | error e => rw [listEvents, hcase] at hpage; cases hpage
      | ok rows => exact ⟨rows, rfl⟩
    exact (listed_iff host db filters hrows hpage).mpr (hown rows hrows)

/-! ### A borrowed name -/

def asciiHost : AuditHost := ⟨asciiPython, asciiPlatform, fun _ => true⟩

/-- A login that came too often, as the service records it. -/
def limitedLogin : AuditEventRecord :=
  ⟨⟨"a", eventId_a⟩, "anonymous", "auth.login", "authentication", "administrator", "failure",
    [("reason", .str "rate_limited")], noon⟩

/-- The creation of an application with that target's id. -/
def created : AuditEventRecord :=
  ⟨⟨"b", eventId_b⟩, "admin", "application.create", "application", "administrator", "success", [],
    noon⟩

def recorded (rows : List AuditEventRecord) (ids : (rows.map fun r => r.id.val).Nodup) : Database :=
  ⟨⟨rows, ids⟩, [⟨"administrator", "Console"⟩], List.nodup_singleton _, [], List.nodup_nil⟩

/-- A request without filters shows all of a short table. -/
theorem list_short (py : Python) (db : AuditTable) (h : db.rows.length ≤ 50) :
    ∃ page, list py db {} = .ok page ∧ ∀ r ∈ db.rows, r ∈ page.events := by
  refine ⟨_, rfl, fun r hr => ?_⟩
  have hselected : (db.rows.filter fun r =>
      ((AuditFilters.conditions py {}) ++ []).all fun condition => condition r) = db.rows :=
    List.filter_eq_self.mpr fun r _ => rfl
  have hlength := (db.rows.perm_insertionSort fun a b => sortKey b ≤ sortKey a).length_eq
  simp only [hselected]
  rw [List.take_of_length_le (by simpa using h), List.take_of_length_le (by rw [hlength]; omega)]
  exact (List.mem_insertionSort _).mpr hr

theorem limitedLogin_name :
    member? (sanitizedDetails asciiPlatform limitedLogin) "target_name" = none := by
  decide +kernel

theorem created_name : member? (sanitizedDetails asciiPlatform created) "target_name" = none := by
  decide +kernel

/-- An event that has no name of its own is presented whatever it borrows. -/
theorem respond_isOk {host : AuditHost} {r : AuditEventRecord}
    (h : member? (sanitizedDetails host.platform r) "target_name" = none)
    (applications : List (String × String)) (executions : List (String × ExecutionRow)) :
    ∃ response, respond host applications executions r = .ok response := by
  have hname : ∃ name, optionalText (shownName host applications r) = .ok name := by
    unfold shownName
    split
    · exact ⟨_, rfl⟩
    · exact ⟨none, by rw [h]; rfl⟩
  obtain ⟨name, hname⟩ := hname
  rw [respond, hname]
  exact ⟨_, rfl⟩

theorem listEvents_short (host : AuditHost) (db : Database) (h : db.events.rows.length ≤ 50)
    (hnames : ∀ r ∈ db.events.rows,
      member? (sanitizedDetails host.platform r) "target_name" = none) :
    ∃ page, listEvents host db {} = .ok page := by
  obtain ⟨rows, hrows, -⟩ := list_short host.python db.events h
  have hresponses : ∃ responses, mapMany host db rows.events = .ok responses :=
    Traversals.mapM_isOk fun r hr => respond_isOk (hnames r (list_rows hrows hr)) _ _
  obtain ⟨responses, hresponses⟩ := hresponses
  rw [listEvents, hrows]
  exact ⟨⟨responses, rows.hasMore, rows.nextCursor⟩, by
    show (mapMany host db rows.events >>= _) = _
    rw [hresponses]
    rfl⟩

/-- Alone on its page a login shows no name, and so it does by itself. -/
theorem list_get_iff_login :
    ∃ page, listEvents asciiHost (recorded [limitedLogin] (List.nodup_singleton _)) {} = .ok page ∧
      ∀ response ∈ page.events,
        get asciiHost (recorded [limitedLogin] (List.nodup_singleton _)) response.id =
          .ok response := by
  obtain ⟨page, hpage⟩ := listEvents_short asciiHost
    (recorded [limitedLogin] (List.nodup_singleton _)) (by decide) fun r hr => by
      rw [List.mem_singleton.mp hr]
      exact limitedLogin_name
  refine ⟨page, hpage, (list_get_iff asciiHost _ {} hpage).mpr fun rows hrows r hr => ?_⟩
  refine Or.inr (Or.inl fun htarget => ?_)
  obtain ⟨a, ha, -⟩ := List.mem_map.mp htarget
  obtain ⟨hmem, htype⟩ := List.mem_filter.mp ha
  rw [List.mem_singleton.mp (list_rows hrows hmem)] at htype
  exact absurd htype (by decide)

/-- On a page with the creation of an application of that id it shows the application's name, which
it does not show by itself. -/
theorem name_borrowed :
    ∃ (host : AuditHost) (db : Database) (page : AuditResponsePage),
      listEvents host db {} = .ok page ∧
      ¬ ∀ response ∈ page.events, get host db response.id = .ok response := by
  have hids : ([limitedLogin, created].map fun r => r.id.val).Nodup := by decide
  have hshort : (recorded [limitedLogin, created] hids).events.rows.length ≤ 50 := by
    show 2 ≤ 50
    decide
  have hnames : ∀ r ∈ (recorded [limitedLogin, created] hids).events.rows,
      member? (sanitizedDetails asciiPlatform r) "target_name" = none := by
    intro r hr
    rcases List.mem_cons.mp hr with rfl | hr
    · exact limitedLogin_name
    · rw [List.mem_singleton.mp hr]
      exact created_name
  obtain ⟨page, hpage⟩ := listEvents_short asciiHost _ hshort hnames
  obtain ⟨rows, hrows, hall⟩ := list_short asciiPython _ hshort
  refine ⟨asciiHost, _, page, hpage, fun hsame => ?_⟩
  have hown := (listed_iff asciiHost _ {} hrows hpage).mp hsame limitedLogin
    (hall limitedLogin List.mem_cons_self)
  have hcreated : created ∈ rows.events := hall created (List.mem_cons_of_mem _ List.mem_cons_self)
  rcases hown with htype | htarget | hname
  · exact absurd htype (by decide)
  · have hasked : created.targetId ∈ applicationTargets rows.events := target_mem hcreated rfl
    exact htarget hasked
  · have hconsole := hname "Console" rfl (by decide)
    have hnone : member? (sanitizedDetails asciiPlatform limitedLogin) "target_name" = none :=
      limitedLogin_name
    have habsurd := hnone.symm.trans hconsole
    cases habsurd

end MachineDeck.Audit

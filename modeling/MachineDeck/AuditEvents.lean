import MachineDeck.Base64
import MachineDeck.IsoTime
import MachineDeck.JsonBytes
import MachineDeck.LineText
import Mathlib.Data.List.Sort
import Mathlib.Data.Prod.Lex
import Mathlib.Data.String.Basic

/-!
# The audit trail

The audit query of `audit/service.py` over the rows of `audit_events`.

* `AuditEventRecord`, `AuditTable` — the rows, each with an id of its own;
* `like`, `AuditFilters.conditions` — the conditions of a query, as SQLite decides them;
* `encodeCursor`, `decodeCursor` — the text between two pages;
* `list` — one page.

Times are stored in UTC without an offset, and a time that is compared with a stored one is bound
without its offset.  A page holds the records it shows; how a record is rendered is left out.
-/

namespace MachineDeck.Audit

open IsoTime (DateTime Stamp)
open JsonText (Json)

/-! ### Rows -/

/-- An id as it fits the column, never empty. -/
def EventId : Type := { id : String // 1 ≤ id.length ∧ id.length ≤ 36 }

/-- A row of `audit_events`. -/
structure AuditEventRecord where
  id : EventId
  actor : String
  action : String
  targetType : String
  targetId : String
  result : String
  detailsJson : List (String × Json)
  createdAt : DateTime

/-- The rows in the order they were stored; `id` is the primary key. -/
structure AuditTable where
  rows : List AuditEventRecord
  ids : (rows.map fun r => r.id.val).Nodup

/-! ### Filters -/

inductive AuditCategory where
  | authentication
  | applicationRegistry
  | applicationLifecycle
  | system
  | other
  deriving DecidableEq, Repr

structure AuditFilters where
  limit : ℕ := 50
  cursor : Option String := none
  start : Option Stamp := none
  end_ : Option Stamp := none
  applicationId : Option String := none
  actor : Option String := none
  action : Option String := none
  result : Option String := none
  category : Option AuditCategory := none
  executionId : Option String := none
  keyword : Option String := none

/-- What is not fixed by the service: Python's case mappings, `str` of a JSON value that is no
string, and how deep JSON may lie. -/
structure Python where
  upper : String → String
  lower : String → String
  str : Json → String
  recursionLimit : ℕ
  recursionLimit_pos : 1 ≤ recursionLimit

/-- SQL `LIKE`, with ASCII letters compared without their case. -/
def like (escape : Option Char) : List Char → List Char → Bool
  | [], text => text.isEmpty
  | '%' :: pattern, text => text.tails.any (like escape pattern)
  | '_' :: pattern, text =>
    match text with
    | [] => false
    | _ :: text => like escape pattern text
  | c :: pattern, text =>
    if escape = some c then
      match pattern, text with
      | d :: pattern, e :: text => d.toLower == e.toLower && like escape pattern text
      | _, _ => false
    else
      match text with
      | [] => false
      | e :: text => c.toLower == e.toLower && like escape pattern text

def likeText (pattern text : String) : Bool := like none pattern.toList text.toList

/-- The keyword with its own wildcards and escapes escaped, one replacement after the other. -/
def escaped (keyword : String) : String :=
  LineText.replaceChar (LineText.replaceChar (LineText.replaceChar keyword '\\' "\\\\")
    '%' "\\%") '_' "\\_"

def keywordPattern (keyword : String) : List Char := '%' :: (escaped keyword).toList ++ ['%']

def ilike (keyword text : String) : Bool := like (some '\\') (keywordPattern keyword) text.toList

/-- A value that was given; Python takes the empty string for none. -/
def given (value : Option String) : Option String := value.filter (· ≠ "")

def registryActions : List String :=
  ["application.create", "application.update", "application.delete"]

def lifecycleActions : List String :=
  ["application.start", "application.stop", "application.restart"]

def categoryCondition (category : AuditCategory) (r : AuditEventRecord) : Bool :=
  match category with
  | .authentication => likeText "auth.%" r.action || r.targetType == "authentication"
  | .applicationRegistry => registryActions.contains r.action
  | .applicationLifecycle => lifecycleActions.contains r.action
  | .system => likeText "system.%" r.action || r.targetType == "system"
  | .other =>
    !(likeText "auth.%" r.action || (registryActions ++ lifecycleActions).contains r.action ||
      likeText "system.%" r.action)

/-- A member of the details that is the given string. -/
def detailIs (name value : String) (r : AuditEventRecord) : Bool :=
  match JsonText.member? r.detailsJson name with
  | some (.str s) => s == value
  | _ => false

def actionConditions (py : Python) (action : String) : List (AuditEventRecord → Bool) :=
  let normalized := py.upper action
  if normalized = "LOGIN_SUCCEEDED" then
    [fun r => r.action == "auth.login", fun r => r.result == "success"]
  else if normalized = "LOGIN_FAILED" ∨ normalized = "RATE_LIMITED" then
    [fun r => r.action == "auth.login", fun r => r.result == "failure",
      detailIs "reason"
        (if normalized = "RATE_LIMITED" then "rate_limited" else "invalid_credentials")]
  else if normalized = "SETUP_COMPLETED" then [fun r => r.action == "auth.setup"]
  else if normalized = "LOGOUT" then [fun r => r.action == "auth.logout"]
  else
    let rawAction := if '.' ∈ action.toList then action else "application." ++ py.lower action
    [fun r => r.action == rawAction]

/-- Every condition but the cursor's. -/
def AuditFilters.conditions (py : Python) (filters : AuditFilters) :
    List (AuditEventRecord → Bool) :=
  (filters.start.toList.map fun s r => decide (s.time ≤ r.createdAt)) ++
  (filters.end_.toList.map fun s r => decide (r.createdAt ≤ s.time)) ++
  ((given filters.applicationId).toList.flatMap fun id =>
    [fun r => r.targetType == "application", fun r => r.targetId == id]) ++
  ((given filters.actor).toList.map fun actor r => r.actor == actor) ++
  ((given filters.action).toList.flatMap (actionConditions py)) ++
  ((given filters.result).toList.map fun result r => r.result == result) ++
  (filters.category.toList.map categoryCondition) ++
  ((given filters.executionId).toList.map fun id => detailIs "execution_id" id) ++
  ((given filters.keyword).toList.map fun keyword r =>
    ilike keyword r.actor || ilike keyword r.action || ilike keyword r.targetId ||
      ilike keyword r.result)

/-! ### Cursors -/

structure AuditQueryError where
  code : String
  message : String
  deriving DecidableEq, Repr

/-- What leaves `list` instead of a page. -/
inductive ListError where
  | query (error : AuditQueryError)
  | recursionError
  deriving DecidableEq, Repr

def cursorInvalid : ListError := .query ⟨"CURSOR_INVALID", "Audit cursor is invalid"⟩

/-- A time without an offset is UTC. -/
def aware (s : Stamp) : Stamp := { s with offset := some (s.offset.getD ⟨0, by decide⟩) }

/-- A stored time, as the session loads it. -/
def loaded (t : DateTime) : Stamp := ⟨t, none⟩

/-- The cursor of a record, of which only its time and its id are read. -/
def cursorText (createdAt : Stamp) (id : EventId) : String :=
  let payload := JsonText.dumpsStrings
    [("timestamp", String.ofList (IsoTime.isoformat (aware createdAt))), ("id", id.val)]
  String.ofList (Base64.rstrip (Base64.encode payload.toUTF8.data.toList))

def encodeCursor (r : AuditEventRecord) : String := cursorText (loaded r.createdAt) r.id

def pyStr (py : Python) : Json → String
  | .str s => s
  | value => py.str value

def decodeCursor (py : Python) (value : String) : Except ListError (Stamp × String) :=
  match (Base64.decode (Base64.padded value.toList)).bind JsonText.decodeBytes with
  | none => .error cursorInvalid
  | some text =>
    match JsonText.loads py.recursionLimit (String.ofList text) with
    | .error .recursion => .error .recursionError
    | .ok (.obj payload) =>
      match JsonText.member? payload "timestamp", JsonText.member? payload "id" with
      | some timestamp, some id =>
        match IsoTime.fromisoformat (pyStr py timestamp).toList with
        | some stamp =>
          let eventId := pyStr py id
          if stamp.offset = none ∨ ¬ (1 ≤ eventId.length ∧ eventId.length ≤ 36) then
            .error cursorInvalid
          else .ok (stamp, eventId)
        | none => .error cursorInvalid
      | _, _ => .error cursorInvalid
    | _ => .error cursorInvalid

/-! ### One page -/

def timeInvalid (message : String) : ListError := .query ⟨"TIME_INVALID", message⟩

def checkTimes (filters : AuditFilters) : Except ListError Unit :=
  if filters.start.any (·.offset = none) then
    .error (timeInvalid "start must include a timezone")
  else if filters.end_.any (·.offset = none) then
    .error (timeInvalid "end must include a timezone")
  else
    match filters.start, filters.end_ with
    | some start, some end_ =>
      if start.instant > end_.instant then .error (timeInvalid "start must be before end")
      else .ok ()
    | _, _ => .ok ()

/-- The rows behind the cursor's. -/
def cursorCondition (timestamp : DateTime) (eventId : String) (r : AuditEventRecord) : Bool :=
  r.createdAt < timestamp || (r.createdAt == timestamp && r.id.val < eventId)

def cursorConditions (py : Python) (cursor : Option String) :
    Except ListError (List (AuditEventRecord → Bool)) :=
  match given cursor with
  | none => .ok []
  | some cursor => do
    let (timestamp, eventId) ← decodeCursor py cursor
    return [cursorCondition timestamp.time eventId]

/-- The order of a page: the latest first, of one time the greatest id first. -/
def sortKey (r : AuditEventRecord) : DateTime ×ₗ String := toLex (r.createdAt, r.id.val)

structure AuditEventPage where
  events : List AuditEventRecord
  hasMore : Bool := false
  nextCursor : Option String := none

def list (py : Python) (db : AuditTable) (filters : AuditFilters) :
    Except ListError AuditEventPage := do
  checkTimes filters
  let conditions := filters.conditions py ++ (← cursorConditions py filters.cursor)
  let selected := db.rows.filter fun r => conditions.all fun condition => condition r
  let records := (selected.insertionSort fun a b => sortKey b ≤ sortKey a).take (filters.limit + 1)
  let hasMore := decide (filters.limit < records.length)
  let pageRecords := records.take filters.limit
  return {
    events := pageRecords
    hasMore := hasMore
    nextCursor := if hasMore then pageRecords.getLast?.map encodeCursor else none }

end MachineDeck.Audit

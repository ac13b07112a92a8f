import MachineDeck.LogReader
import MachineDeck.LogWebSocket
import MachineDeck.PythonNumber

/-!
# The journal as a log source

`JournalLogAdapter` of `logging/adapters.py`, from the bytes of its reader to what the producer of
the log WebSocket does with them.

* `Platform`, `PyError` — what the interpreter and its platform decide, and the exceptions;
* `journalEvent`, `journalParse` — `_parse` inside its `try`, and with its `except`;
* `journalFollow`, `producerScript` — the loop of `follow`, and the calls of the producer;
* `Harmless` — what a line must be like for its text to make an event;
* `journal_stream_iff` — a stream ends with its envelope exactly when all its lines are.

A lone surrogate in a JSON string is read as U+FFFD here.  Python keeps it, and the event model
then refuses the text: that line makes its event in the `except` branch.
-/

namespace MachineDeck.Logs

open JsonText (Json LoadsError loads member?)
open PythonNumber (IntError pythonInt)

/-! ### The interpreter -/

inductive TimestampError where
  | valueError
  | overflowError
  | osError
  deriving DecidableEq, Repr

/-- How deep JSON may nest, Unicode's decimal digits, `str` of what is not a text, and
`datetime.fromtimestamp(value / 1_000_000, tz=timezone.utc)`. -/
structure Platform where
  recursionLimit : ℕ
  decimalDigit : Char → Option ℕ
  str : Json → String
  fromTimestamp : ℤ → Except TimestampError Instant

inductive PyError where
  | jsonDecodeError
  | typeError
  | valueError
  | attributeError
  | overflowError
  | osError
  | recursionError
  deriving DecidableEq, Repr

/-- `except (json.JSONDecodeError, TypeError, ValueError)`. -/
def PyError.caught : PyError → Bool
  | .jsonDecodeError => true
  | .typeError => true
  | .valueError => true
  | _ => false

def PyError.ofLoads : LoadsError → PyError
  | .invalid => .jsonDecodeError
  | .recursion => .recursionError
  | .digits => .valueError

def PyError.ofInt : IntError → PyError
  | .typeError => .typeError
  | .valueError => .valueError
  | .overflowError => .overflowError

def PyError.ofTimestamp : TimestampError → PyError
  | .valueError => .valueError
  | .overflowError => .overflowError
  | .osError => .osError

/-! ### One line -/

/-- `payload.get`: only an object has it. -/
def asObject : Json → Except PyError (List (String × Json))
  | .obj members => .ok members
  | _ => .error .attributeError

def messageText (platform : Platform) : Option Json → String
  | none => ""
  | some (.str text) => text
  | some value => platform.str value

/-- The event takes a text or nothing; anything else is a `ValidationError`, a `ValueError`. -/
def cursorText : Option Json → Except PyError (Option String)
  | none => .ok none
  | some .null => .ok none
  | some (.str text) => .ok (some text)
  | some _ => .error .valueError

def timestampJson (members : List (String × Json)) : Json :=
  (member? members "__REALTIME_TIMESTAMP").getD (.int 0)

def priorityJson (members : List (String × Json)) : Json :=
  (member? members "PRIORITY").getD (.int 6)

def journalTime (platform : Platform) (now : Instant) (members : List (String × Json)) :
    Except PyError Instant := do
  let timestampValue ←
    (pythonInt platform.decimalDigit (timestampJson members)).mapError PyError.ofInt
  if timestampValue ≠ 0 then
    (platform.fromTimestamp timestampValue).mapError PyError.ofTimestamp
  else .ok now

/-- What follows the time in the `try` block. -/
def eventAt (platform : Platform) (applicationId : String) (line : RawLine)
    (members : List (String × Json)) (timestamp : Instant) : Except PyError LogEvent := do
  let message := messageText platform (member? members "MESSAGE")
  let priority ← (pythonInt platform.decimalDigit (priorityJson members)).mapError PyError.ofInt
  let stream := if priority ≤ 3 then LogStream.stderr else .unknown
  let (message, messageTruncated, messageSize) := boundedMessage maxLogLineBytes message
  let cursor ← cursorText (member? members "__CURSOR")
  return { applicationId, timestamp, source := .journal, stream, message, cursor,
           truncated := line.truncated || messageTruncated,
           originalSize := some (if line.truncated then line.originalSize else messageSize) }

/-- The `try` block of `_parse`. -/
def journalEvent (platform : Platform) (applicationId : String) (now : Instant) (line : RawLine) :
    Except PyError LogEvent := do
  let payload ←
    (loads platform.recursionLimit (Utf8Text.decode line.raw)).mapError PyError.ofLoads
  let members ← asObject payload
  let timestamp ← journalTime platform now members
  eventAt platform applicationId line members timestamp

/-- The event of a line that is not what the journal writes: the line itself. -/
def journalFallback (applicationId : String) (now : Instant) (line : RawLine) : LogEvent :=
  { applicationId, timestamp := now, source := .journal, message := Utf8Text.decode line.raw,
    truncated := line.truncated, originalSize := some line.originalSize }

/-- `_parse`, with the exceptions it does not catch. -/
def journalParse (platform : Platform) (applicationId : String) (now : Instant) (line : RawLine) :
    Except PyError LogEvent :=
  match journalEvent platform applicationId now line with
  | .ok event => .ok event
  | .error e =>
    if e.caught then .ok (journalFallback applicationId now line) else .error e

/-! ### The stream -/

/-- How the reader ended, with its stripped error output. -/
structure ReaderExit where
  returnCode : ℤ := 0
  stderr : String := ""
  deriving DecidableEq, Repr

/-- How an `async for` over `follow` ends. -/
inductive FollowEnd where
  | closed
  | logSourceError (message : String)
  | raised (e : PyError)
  deriving DecidableEq, Repr

def ReaderExit.ending (exit : ReaderExit) : FollowEnd :=
  if exit.returnCode = 0 then .closed
  else .logSourceError
    (if exit.stderr = "" then s!"Log reader exited with status {exit.returnCode}"
      else exit.stderr)

/-- The loop of `follow`; `clock i` is the time at the `i`th line. -/
def journalFollow (platform : Platform) (applicationId : String) (clock : ℕ → Instant)
    (exit : ReaderExit) : ℕ → List RawLine → List LogEvent × FollowEnd
  | _, [] => ([], exit.ending)
  | i, line :: lines =>
    if line.raw = [] then journalFollow platform applicationId clock exit (i + 1) lines
    else
      match journalParse platform applicationId (clock i) line with
      | .error e => ([], .raised e)
      | .ok event =>
        let (events, ending) := journalFollow platform applicationId clock exit (i + 1) lines
        (event :: events, ending)

/-- `ApplicationLogService._prepare`. -/
def prepare (redact : String → String) (services : List String) (event : LogEvent) :
    Option LogEvent :=
  if !services.isEmpty && !event.service.any (services.contains ·) then none
  else some { event with message := redact event.message }

/-- What the producer does, call by call; an exception it does not know ends it silently. -/
def producerScript (redact : String → String) (services : List String)
    (followed : List LogEvent × FollowEnd) : List Label :=
  (followed.1.filterMap (prepare redact services)).map .produce ++
    match followed.2 with
    | .closed => [.sourceCloses]
    | .logSourceError message => [.sourceFails message]
    | .raised _ => []

/-! ### Which lines make an event -/

/-- The time of an object: absent where `int` or the clock refuses it with a `ValueError` or a
`TypeError`. -/
def HasTime (platform : Platform) (members : List (String × Json)) : Prop :=
  ∃ value, pythonInt platform.decimalDigit (timestampJson members) = .ok value ∧
    (value = 0 ∨ ∃ at', platform.fromTimestamp value = .ok at')

/-- An object whose time is no infinite number and not out of the platform's range, and whose
priority, where it is looked at, is no infinite number. -/
structure HarmlessObject (platform : Platform) (members : List (String × Json)) : Prop where
  timestamp : pythonInt platform.decimalDigit (timestampJson members) ≠ .error .overflowError
  range : ∀ value, pythonInt platform.decimalDigit (timestampJson members) = .ok value →
    value ≠ 0 → platform.fromTimestamp value ≠ .error .overflowError ∧
      platform.fromTimestamp value ≠ .error .osError
  priority : HasTime platform members →
    pythonInt platform.decimalDigit (priorityJson members) ≠ .error .overflowError

/-- A text that `json.loads` does not take, or such an object; not one that nests too deep. -/
def Harmless (platform : Platform) (text : String) : Prop :=
  match loads platform.recursionLimit text with
  | .error .invalid => True
  | .error .digits => True
  | .error .recursion => False
  | .ok (.obj members) => HarmlessObject platform members
  | .ok _ => False

section Lines

variable {platform : Platform} {applicationId : String} {now : Instant} {line : RawLine}

theorem journalParse_ok_iff :
    (∃ event, journalParse platform applicationId now line = .ok event) ↔
      ∀ e, journalEvent platform applicationId now line = .error e → e.caught = true := by
  unfold journalParse
  cases journalEvent platform applicationId now line with
  | ok event => simp
  | error e => by_cases hcaught : e.caught = true <;> simp [hcaught]

theorem ofInt_caught (e : IntError) : (PyError.ofInt e).caught = true ↔ e ≠ .overflowError := by
  cases e <;> decide

theorem ofTimestamp_caught (e : TimestampError) :
    (PyError.ofTimestamp e).caught = true ↔ e ≠ .overflowError ∧ e ≠ .osError := by
  cases e <;> decide

theorem cursorText_caught {value : Option Json} {e : PyError} (h : cursorText value = .error e) :
    e.caught = true := by
  unfold cursorText at h
  split at h
  · cases h
  · cases h
  · cases h
  · cases h
    rfl

theorem journalTime_ok (platform : Platform) (now : Instant) (members : List (String × Json)) :
    (∃ timestamp, journalTime platform now members = .ok timestamp) ↔
      HasTime platform members := by
  unfold journalTime HasTime
  cases pythonInt platform.decimalDigit (timestampJson members) with
  | error e => simp [Except.mapError, bind, Except.bind]
  | ok value =>
    by_cases hzero : value = 0
    · simp [Except.mapError, bind, Except.bind, hzero]
    · simp only [Except.mapError, bind, Except.bind, ne_eq, hzero, not_false_eq_true, if_true,
        Except.ok.injEq, exists_eq_left', false_or]
      cases platform.fromTimestamp value <;> simp

theorem journalTime_caught (platform : Platform) (now : Instant)
    (members : List (String × Json)) :
    (∀ e, journalTime platform now members = .error e → e.caught = true) ↔
      pythonInt platform.decimalDigit (timestampJson members) ≠ .error .overflowError ∧
      ∀ value, pythonInt platform.decimalDigit (timestampJson members) = .ok value →
        value ≠ 0 → platform.fromTimestamp value ≠ .error .overflowError ∧
          platform.fromTimestamp value ≠ .error .osError := by
  unfold journalTime
  cases pythonInt platform.decimalDigit (timestampJson members) with
  | error e =>
    simp only [Except.mapError, bind, Except.bind, Except.error.injEq, forall_eq', ne_eq,
      reduceCtorEq, false_implies, implies_true, and_true]
    exact ofInt_caught e
  | ok value =>
    by_cases hzero : value = 0
    · simp [Except.mapError, bind, Except.bind, hzero]
    · simp only [Except.mapError, bind, Except.bind, ne_eq, hzero, not_false_eq_true, if_true,
        reduceCtorEq, Except.ok.injEq, true_and, forall_eq', forall_const]
      cases platform.fromTimestamp value with
      | ok timestamp => simp
      | error e =>
        simp only [Except.error.injEq, forall_eq']
        exact ofTimestamp_caught e

theorem eventAt_caught {members : List (String × Json)} {timestamp : Instant} :
    (∀ e, eventAt platform applicationId line members timestamp = .error e → e.caught = true) ↔
      pythonInt platform.decimalDigit (priorityJson members) ≠ .error .overflowError := by
  unfold eventAt
  cases pythonInt platform.decimalDigit (priorityJson members) with
  | error e =>
    simp only [Except.mapError, bind, Except.bind, Except.error.injEq, forall_eq', ne_eq]
    exact ofInt_caught e
  | ok priority =>
    simp only [Except.mapError, bind, Except.bind, ne_eq, reduceCtorEq, not_false_eq_true, iff_true]
    intro e he
    cases hcursor : cursorText (member? members "__CURSOR") with
    | ok cursor =>
      rw [hcursor] at he
      cases he
    | error e' =>
      rw [hcursor] at he
      cases he
      exact cursorText_caught hcursor

theorem journalEvent_object {members : List (String × Json)}
    (hloads : loads platform.recursionLimit (Utf8Text.decode line.raw) = .ok (.obj members)) :
    (∀ e, journalEvent platform applicationId now line = .error e → e.caught = true) ↔
      HarmlessObject platform members := by
  have hevent : journalEvent platform applicationId now line =
      (journalTime platform now members >>=
        eventAt platform applicationId line members) := by
    unfold journalEvent
    rw [hloads]
    rfl
  rw [hevent]
  cases htime : journalTime platform now members with
  | error e =>
    have hcaught := journalTime_caught platform now members
    have hno : ¬ HasTime platform members := by
      rw [← journalTime_ok platform now members, htime]
      rintro ⟨_, h⟩
      cases h
    rw [htime] at hcaught
    simp only [bind, Except.bind, Except.error.injEq, forall_eq'] at hcaught ⊢
    constructor
    · intro h
      obtain ⟨hint, hrange⟩ := hcaught.mp h
      exact ⟨hint, hrange, fun ht => absurd ht hno⟩
    · intro h
      exact hcaught.mpr ⟨h.timestamp, h.range⟩
  | ok timestamp =>
    have hcaught := journalTime_caught platform now members
    have hyes : HasTime platform members := (journalTime_ok platform now members).mp ⟨timestamp, htime⟩
    rw [htime] at hcaught
    obtain ⟨hint, hrange⟩ := hcaught.mp (by intro e he; cases he)
    constructor
    · intro h
      exact ⟨hint, hrange, fun _ => eventAt_caught.mp h⟩
    · intro h
      exact eventAt_caught.mpr (h.priority hyes)

/-- **Which lines make an event.** -/
theorem journalParse_iff (platform : Platform) (applicationId : String) (now : Instant)
    (line : RawLine) :
    (∃ event, journalParse platform applicationId now line = .ok event) ↔
      Harmless platform (Utf8Text.decode line.raw) := by
  rw [journalParse_ok_iff]
  unfold Harmless
  split
  iterate 2
    · rename_i hloads
      simp only [journalEvent, hloads, Except.mapError, bind, Except.bind, Except.error.injEq,
        forall_eq', iff_true]
      rfl
  · rename_i hloads
    simp only [journalEvent, hloads, Except.mapError, bind, Except.bind, Except.error.injEq,
      forall_eq', iff_false]
    decide
  · rename_i members hloads
    exact journalEvent_object hloads
  · rename_i payload hnot hloads
    have hobject : asObject payload = .error .attributeError := by
      cases payload with
      | obj members => exact absurd rfl (hnot members)
      | _ => rfl
    simp only [journalEvent, hloads, Except.mapError, bind, Except.bind, hobject,
      Except.error.injEq, forall_eq', iff_false]
    decide

end Lines

/-! ### Whole streams -/

section Streams

variable (platform : Platform) (applicationId : String) (clock : ℕ → Instant) (exit : ReaderExit)

/-- One event for each line that is not empty, in order. -/
def OnePerLine (platform : Platform) (applicationId : String) (lines : List RawLine)
    (events : List LogEvent) : Prop :=
  List.Forall₂ (fun line event => ∃ now, journalParse platform applicationId now line = .ok event)
    (lines.filter fun line => line.raw ≠ []) events

theorem journalFollow_harmless (lines : List RawLine) (i : ℕ)
    (h : ∀ line ∈ lines.filter (fun line => line.raw ≠ []),
      Harmless platform (Utf8Text.decode line.raw)) :
    OnePerLine platform applicationId lines
        (journalFollow platform applicationId clock exit i lines).1 ∧
      (journalFollow platform applicationId clock exit i lines).2 = exit.ending := by
  induction lines generalizing i with
  | nil => exact ⟨.nil, rfl⟩
  | cons line lines ih =>
    rw [journalFollow]
    unfold OnePerLine
    by_cases hraw : line.raw = []
    · have hskip : (line :: lines).filter (fun line => line.raw ≠ []) =
          lines.filter fun line => line.raw ≠ [] := List.filter_cons_of_neg (by simp [hraw])
      rw [hskip] at h ⊢
      rw [if_pos hraw]
      exact ih (i + 1) h
    · have hkeep : (line :: lines).filter (fun line => line.raw ≠ []) =
          line :: lines.filter fun line => line.raw ≠ [] :=
        List.filter_cons_of_pos (by simpa using hraw)
      rw [hkeep] at h ⊢
      rw [if_neg hraw]
      obtain ⟨event, hevent⟩ := (journalParse_iff platform applicationId (clock i) line).mpr
        (h line List.mem_cons_self)
      obtain ⟨hrest, hending⟩ := ih (i + 1) fun l hl => h l (List.mem_cons_of_mem _ hl)
      rw [hevent]
      exact ⟨.cons ⟨clock i, hevent⟩ hrest, hending⟩

theorem journalFollow_raises (lines : List RawLine) (i : ℕ) {line : RawLine}
    (hline : line ∈ lines.filter fun line => line.raw ≠ [])
    (h : ¬ Harmless platform (Utf8Text.decode line.raw)) :
    ∃ e, (journalFollow platform applicationId clock exit i lines).2 = .raised e := by
  induction lines generalizing i with
  | nil => cases hline
  | cons first lines ih =>
    rw [journalFollow]
    by_cases hraw : first.raw = []
    · rw [List.filter_cons_of_neg (by simp [hraw])] at hline
      rw [if_pos hraw]
      exact ih (i + 1) hline
    · rw [List.filter_cons_of_pos (by simpa using hraw)] at hline
      rw [if_neg hraw]
      cases hparse : journalParse platform applicationId (clock i) first with
      | error e => exact ⟨e, rfl⟩
      | ok event =>
        rcases List.mem_cons.mp hline with rfl | hline
        · exact absurd ((journalParse_iff _ _ _ _).mp ⟨event, hparse⟩) h
        · exact ih (i + 1) hline

/-- The lines of the reader that are not empty. -/
def journalLines (stdout : List UInt8) : List (List UInt8) := (stdout.splitOn 10).filter (· ≠ [])

/-- The text that is parsed: a line is cut before it is decoded. -/
def lineText (line : List UInt8) : String := Utf8Text.decode (line.take maxLogLineBytes)

/-- The reader exits with status 0; `follow` has yielded one event for each line that is not
empty, and the producer queues an eof envelope behind them. -/
def StreamEnds (platform : Platform) (applicationId : String) (clock : ℕ → Instant)
    (redact : String → String) (services : List String) (stdout : List UInt8) : Prop :=
  let followed := journalFollow platform applicationId clock {} 0
    (boundedLines maxLogLineBytes stdout)
  OnePerLine platform applicationId (boundedLines maxLogLineBytes stdout) followed.1 ∧
  producerScript redact services followed =
    (followed.1.filterMap (prepare redact services)).map .produce ++ [.sourceCloses]

/-- The producer queues an eof or an error envelope. -/
def LastEnvelope (platform : Platform) (applicationId : String) (clock : ℕ → Instant)
    (redact : String → String) (services : List String) (stdout : List UInt8) : Prop :=
  let script := producerScript redact services
    (journalFollow platform applicationId clock {} 0 (boundedLines maxLogLineBytes stdout))
  .sourceCloses ∈ script ∨ ∃ message, .sourceFails message ∈ script

theorem harmless_lines (platform : Platform) (stdout : List UInt8) :
    (∀ line ∈ (boundedLines maxLogLineBytes stdout).filter (fun line => line.raw ≠ []),
      Harmless platform (Utf8Text.decode line.raw)) ↔
    ∀ line ∈ journalLines stdout, Harmless platform (lineText line) := by
  rw [boundedLines_eq (by decide), List.forall_mem_map]
  rfl

/-- A producer whose `follow` raised has queued events only. -/
theorem producerScript_raised (redact : String → String) (services : List String)
    {followed : List LogEvent × FollowEnd} {e : PyError} (h : followed.2 = .raised e) :
    ∀ label ∈ producerScript redact services followed, ∃ event, label = .produce event := by
  intro label hlabel
  rw [producerScript, h, List.append_nil] at hlabel
  obtain ⟨event, -, rfl⟩ := List.mem_map.mp hlabel
  exact ⟨event, rfl⟩

theorem streamEnds_iff (redact : String → String) (services : List String)
    (stdout : List UInt8) :
    StreamEnds platform applicationId clock redact services stdout ↔
      ∀ line ∈ journalLines stdout, Harmless platform (lineText line) := by
  rw [← harmless_lines]
  constructor
  · rintro ⟨-, hscript⟩
    by_contra hall
    simp only [not_forall] at hall
    obtain ⟨line, hline, hbad⟩ := hall
    obtain ⟨e, he⟩ := journalFollow_raises platform applicationId clock {}
      (boundedLines maxLogLineBytes stdout) 0 hline hbad
    obtain ⟨event, hevent⟩ := producerScript_raised redact services he .sourceCloses (by
      rw [hscript]
      exact List.mem_append_right _ (List.mem_singleton_self _))
    cases hevent
  · intro hall
    obtain ⟨hone, hending⟩ := journalFollow_harmless platform applicationId clock {}
      (boundedLines maxLogLineBytes stdout) 0 hall
    refine ⟨hone, ?_⟩
    rw [producerScript, hending]
    rfl

theorem lastEnvelope_iff (redact : String → String) (services : List String)
    (stdout : List UInt8) :
    LastEnvelope platform applicationId clock redact services stdout ↔
      ∀ line ∈ journalLines stdout, Harmless platform (lineText line) := by
  constructor
  · intro hlast
    rw [← harmless_lines]
    by_contra hall
    simp only [not_forall] at hall
    obtain ⟨line, hline, hbad⟩ := hall
    obtain ⟨e, he⟩ := journalFollow_raises platform applicationId clock {}
      (boundedLines maxLogLineBytes stdout) 0 hline hbad
    have honly := producerScript_raised redact services he
    rcases hlast with hclose | ⟨message, hfail⟩
    · obtain ⟨event, hevent⟩ := honly _ hclose
      cases hevent
    · obtain ⟨event, hevent⟩ := honly _ hfail
      cases hevent
  · intro hall
    have hends := (streamEnds_iff platform applicationId clock redact services stdout).mpr hall
    left
    rw [hends.2]
    exact List.mem_append_right _ (List.mem_singleton_self _)

end Streams

/-- **When no line kills a journal stream.**  One event for each line that is not empty, and an
eof envelope behind them, exactly when every such line is harmless; where one is not, the producer
ends without any last envelope. -/
theorem journal_stream_iff (platform : Platform) (applicationId : String) (clock : ℕ → Instant)
    (redact : String → String) (services : List String) (stdout : List UInt8) :
    (StreamEnds platform applicationId clock redact services stdout ↔
      ∀ line ∈ journalLines stdout, Harmless platform (lineText line)) ∧
    (LastEnvelope platform applicationId clock redact services stdout ↔
      ∀ line ∈ journalLines stdout, Harmless platform (lineText line)) :=
  ⟨streamEnds_iff platform applicationId clock redact services stdout,
    lastEnvelope_iff platform applicationId clock redact services stdout⟩

/-- A platform whose clock knows the years 1970 to 9999. -/
def plainPlatform : Platform where
  recursionLimit := 1000
  decimalDigit := PythonNumber.asciiDigit
  str _ := ""
  fromTimestamp value :=
    if 0 ≤ value ∧ value < 253402300800000000 then .ok value else .error .valueError

theorem loads_emptyArray : loads 1000 "[]" = .ok (.arr []) := by
  have hopen : JsonText.Machine.step 1000 ⟨[], .value, "[]".toList⟩ =
      .ok (.inl ⟨[], .first, [']']⟩) := rfl
  have hclose : JsonText.Machine.step 1000 ⟨[], .first, [']']⟩ =
      .ok (.inl ⟨[], .done (.arr []), []⟩) := rfl
  have hdone : JsonText.Machine.step 1000 ⟨[], .done (.arr []), []⟩ = .ok (.inr (.arr [])) := rfl
  rw [loads, if_neg (by decide), JsonText.Machine.run_step hopen,
    JsonText.Machine.run_step hclose, JsonText.Machine.run_done hdone]

/-- **The line `[]` kills a journal stream.** -/
theorem journal_stream_killed :
    ¬ ∀ (platform : Platform) (applicationId : String) (clock : ℕ → Instant)
      (redact : String → String) (services : List String) (stdout : List UInt8),
      StreamEnds platform applicationId clock redact services stdout := by
  intro h
  have hends := (streamEnds_iff plainPlatform "app" (fun _ => 0) id [] [91, 93, 10]).mp
    (h plainPlatform "app" (fun _ => 0) id [] [91, 93, 10])
  have hbad := hends [91, 93] (by decide)
  have htext : lineText [91, 93] = "[]" := by decide
  rw [htext, Harmless, show loads plainPlatform.recursionLimit "[]" = _ from loads_emptyArray]
    at hbad
  exact hbad

end MachineDeck.Logs

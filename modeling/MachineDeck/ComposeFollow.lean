import MachineDeck.ComposeLines
import MachineDeck.IsoTime
import MachineDeck.Traversals
import Mathlib.Data.List.Perm.Subperm

/-!
# Following Docker Compose across reconnects

`DockerComposeLogAdapter.follow`, with the containers that write and the readers that come and go.

* `StoredLine`, `LogsCommand.recalls` — what Docker keeps, and what a new reader is given of it;
* `Follow`, `Follow.step` — where the loop stands, and every step of it and of its surroundings;
* `Accounts` — every line written is yielded, on its way, or missed;
* `compose_at_least_once` — nothing is missed by runs in which no line is written between two
  readers;
* `compose_gap_loses` — a line written there is not seen again.

`begun`, `written` and `missed` only record what happened.
-/

namespace MachineDeck.Logs

open GuardedRuns
open JsonText (loads loads_dumpsStrings)
open Lifecycle (AdapterResult)

/-! ### What Docker keeps -/

/-- A line as a reader prints it, behind the name of its container, and when it was written. -/
structure StoredLine where
  time : Instant
  text : List UInt8
  nonempty : text ≠ []
  oneLine : 10 ∉ text
  deriving DecidableEq

/-- What `_bounded_lines` makes of the lines that are printed one after the other. -/
theorem boundedLines_printed (lines : List StoredLine) :
    (boundedLines maxLogLineBytes (lines.flatMap fun line => line.text ++ [10])).filter
        (fun line => line.raw ≠ []) =
      lines.map fun line => boundLine maxLogLineBytes line.text := by
  have hsplit : ((lines.flatMap fun line => line.text ++ [10]).splitOn 10).filter (· ≠ []) =
      lines.map StoredLine.text := by
    induction lines with
    | nil => rfl
    | cons line lines ih =>
      rw [List.flatMap_cons, List.append_assoc, List.singleton_append,
        List.splitOn_append_cons_self_of_not_mem line.oneLine,
        List.filter_cons_of_pos (by simpa using line.nonempty), ih, List.map_cons]
  rw [boundedLines_eq (by decide), hsplit, List.map_map]
  rfl

/-- No line is empty once it is cut. -/
theorem boundLine_stored (line : StoredLine) : (boundLine maxLogLineBytes line.text).raw ≠ [] :=
  fun h => line.nonempty ((raw_boundLine (by decide) line.text).mp h)

structure LogsCommand where
  tail : ℕ
  since : Option Instant
  deriving DecidableEq, Repr

/-- The last `tail` lines that are not older than `since`. -/
def LogsCommand.recalls (command : LogsCommand) (stored : List StoredLine) : List StoredLine :=
  let kept := stored.filter fun line => command.since.all fun since => decide (since ≤ line.time)
  kept.drop (kept.length - command.tail)

/-- The years 1 to 9999. -/
def utcRange (t : Instant) : Prop := -62135596800000000 ≤ t ∧ t < 253402300800000000

instance (t : Instant) : Decidable (utcRange t) := inferInstanceAs (Decidable (_ ∧ _))

/-- `last_timestamp.astimezone(timezone.utc)`. -/
def sinceArgument : Option Instant → Except PyError (Option Instant)
  | none => .ok none
  | some t => if utcRange t then .ok (some t) else .error .overflowError

/-- `logs --follow --timestamps --no-color --tail 0`, and `--since`. -/
def followCommand (lastTimestamp : Option Instant) : Except PyError LogsCommand :=
  (sinceArgument lastTimestamp).map fun since => { tail := 0, since := since }

theorem followCommand_recalls {lastTimestamp : Option Instant} {command : LogsCommand}
    (h : followCommand lastTimestamp = .ok command) (stored : List StoredLine) :
    command.recalls stored = [] := by
  have htail : command.tail = 0 := by
    unfold followCommand at h
    cases hsince : sinceArgument lastTimestamp with
    | error e =>
      rw [hsince] at h
      cases h
    | ok since =>
      rw [hsince] at h
      cases h
      rfl
  rw [LogsCommand.recalls, htail]
  exact List.drop_length

/-! ### The loop -/

inductive FollowPhase where
  | starting
  | connecting
  /-- A reader was started; how it exited, once it has. -/
  | attached (exit : Option ReaderExit)
  | reconnecting
  | sleeping
  | ended (how : FollowEnd)
  deriving DecidableEq, Repr

def FollowPhase.reading : FollowPhase → Bool
  | .attached _ => true
  | _ => false

def FollowPhase.over : FollowPhase → Bool
  | .ended _ => true
  | _ => false

/-- `output` is what the reader has printed and the loop has not read. -/
structure Follow where
  adapter : ComposeAdapter := {}
  lastTimestamp : Option Instant := none
  phase : FollowPhase := .starting
  stored : List StoredLine := []
  output : List StoredLine := []
  yielded : List (StoredLine × LogEvent) := []
  /-- A reader was attached once. -/
  begun : Bool := false
  written : List StoredLine := []
  missed : List StoredLine := []

inductive FollowLabel where
  | write (line : StoredLine)
  | refresh (answer : AdapterResult)
  /-- A reader is attached and prints these lines first. -/
  | attach (backlog : List StoredLine)
  | startFails (message : String)
  | sinceOverflows
  /-- The next line; the answer of `docker compose ps` counts where its service is not known. -/
  | read (now : Instant) (answer : AdapterResult) (later : Instant)
  | exit (exit : ReaderExit)
  | endOfOutput
  | wake

def Follow.write (s : Follow) (line : StoredLine) : Follow :=
  let s := { s with stored := s.stored ++ [line] }
  if s.phase = .attached none then
    { s with output := s.output ++ [line], written := s.written ++ [line] }
  else if s.begun && !s.phase.over then
    { s with written := s.written ++ [line], missed := s.missed ++ [line] }
  else s

/-- `_parse`, and again after a refresh where the service is not known. -/
def readLine (platform : ComposePlatform) (applicationId : String) (adapter : ComposeAdapter)
    (now : Instant) (answer : AdapterResult) (later : Instant) (line : RawLine) :
    Except PyError (ComposeAdapter × LogEvent) :=
  let event := composeParse platform applicationId adapter now line
  if adapter.knows event then .ok (adapter, event)
  else do
    let (_, adapter) ← refreshServices platform answer adapter
    return (adapter, composeParse platform applicationId adapter later line)

def Follow.yieldEvent (s : Follow) (adapter : ComposeAdapter) (line : StoredLine)
    (rest : List StoredLine) (event : LogEvent) : Follow :=
  { s with
    adapter := adapter
    lastTimestamp := some event.timestamp
    output := rest
    yielded := s.yielded ++ [(line, event)] }

def Follow.read (platform : ComposePlatform) (applicationId : String) (s : Follow) (now : Instant)
    (answer : AdapterResult) (later : Instant) (line : StoredLine) (rest : List StoredLine) :
    Follow :=
  let raw := boundLine maxLogLineBytes line.text
  if raw.raw = [] then { s with output := rest }
  else
    match readLine platform applicationId s.adapter now answer later raw with
    | .ok (adapter, event) => s.yieldEvent adapter line rest event
    -- the reader is terminated, with what it has printed
    | .error e =>
      { s with phase := .ended (.raised e), output := [], missed := s.missed ++ line :: rest }

theorem Follow.read_ok {platform : ComposePlatform} {applicationId : String} {s : Follow}
    {now later : Instant} {answer : AdapterResult} {line : StoredLine} {adapter : ComposeAdapter}
    {event : LogEvent}
    (h : readLine platform applicationId s.adapter now answer later
      (boundLine maxLogLineBytes line.text) = .ok (adapter, event)) (rest : List StoredLine) :
    s.read platform applicationId now answer later line rest =
      s.yieldEvent adapter line rest event := by
  rw [Follow.read, if_neg (boundLine_stored line), h]

def Follow.refresh (platform : ComposePlatform) (s : Follow) (answer : AdapterResult) :
    Option Follow :=
  match s.phase, refreshServices platform answer s.adapter with
  | .starting, .ok (_, adapter) => some { s with adapter := adapter, phase := .connecting }
  | .reconnecting, .ok (running, adapter) =>
    some { s with adapter := adapter, phase := if running then .sleeping else .ended .closed }
  | .starting, .error e => some { s with phase := .ended (.raised e) }
  | .reconnecting, .error e => some { s with phase := .ended (.raised e) }
  | _, _ => none

def Follow.step (platform : ComposePlatform) (applicationId : String) (s : Follow) :
    FollowLabel → Option Follow
  | .write line => some (s.write line)
  | .refresh answer => s.refresh platform answer
  | .attach backlog =>
    match s.phase, followCommand s.lastTimestamp with
    | .connecting, .ok command =>
      if backlog.Sublist (command.recalls s.stored) then
        some { s with phase := .attached none, output := backlog, begun := true }
      else none
    | _, _ => none
  | .startFails message =>
    match s.phase, followCommand s.lastTimestamp with
    | .connecting, .ok _ => some { s with phase := .ended (.logSourceError message) }
    | _, _ => none
  | .sinceOverflows =>
    match s.phase, followCommand s.lastTimestamp with
    | .connecting, .error e => some { s with phase := .ended (.raised e) }
    | _, _ => none
  | .read now answer later =>
    match s.phase, s.output with
    | .attached _, line :: rest =>
      some (s.read platform applicationId now answer later line rest)
    | _, _ => none
  | .exit exit =>
    match s.phase with
    | .attached none => some { s with phase := .attached (some exit) }
    | _ => none
  | .endOfOutput =>
    match s.phase, s.output with
    | .attached (some exit), [] =>
      match exit.ending with
      | .closed => some { s with phase := .reconnecting }
      | how => some { s with phase := .ended how }
    | _, _ => none
  | .wake =>
    match s.phase with
    | .sleeping =>
      some { s with phase := if s.adapter.hasRunningContainers then .connecting else .ended .closed }
    | _ => none

def FollowMoves (platform : ComposePlatform) (applicationId : String) (s : Follow)
    (label : FollowLabel) (s' : Follow) : Prop :=
  s.step platform applicationId label = some s'

/-! ### What becomes of the lines -/

/-- Each line is yielded, has been printed by the reader, or is missed; a reader that is not there
has printed nothing. -/
structure Accounts (platform : ComposePlatform) (applicationId : String) (s : Follow) : Prop where
  total : s.written.Perm (s.yielded.map Prod.fst ++ s.output ++ s.missed)
  idle : s.phase.reading = false → s.output = []
  events : ∀ p ∈ s.yielded, ∃ adapter now,
    p.2 = composeParse platform applicationId adapter now (boundLine maxLogLineBytes p.1.text)

section Steps

variable {platform : ComposePlatform} {applicationId : String} {s s' : Follow}

/-- A step that leaves the lines alone, with nothing printed by a reader that is gone. -/
theorem Accounts.quiet (h : Accounts platform applicationId s)
    (hwritten : s'.written = s.written) (hyielded : s'.yielded = s.yielded)
    (houtput : s'.output = s.output) (hmissed : s'.missed = s.missed)
    (hidle : s'.phase.reading = false → s.output = []) :
    Accounts platform applicationId s' where
  total := by
    rw [hwritten, hyielded, houtput, hmissed]
    exact h.total
  idle := by
    rw [houtput]
    exact hidle
  events := by
    rw [hyielded]
    exact h.events

theorem Accounts.write (h : Accounts platform applicationId s) (line : StoredLine) :
    Accounts platform applicationId (s.write line) := by
  unfold Follow.write
  by_cases hattached : s.phase = .attached none
  · rw [if_pos hattached]
    constructor
    · show (s.written ++ [line]).Perm
        (s.yielded.map Prod.fst ++ (s.output ++ [line]) ++ s.missed)
      rw [← List.append_assoc (s.yielded.map Prod.fst)]
      have hswap : (s.yielded.map Prod.fst ++ s.output ++ s.missed ++ [line]).Perm
          (s.yielded.map Prod.fst ++ s.output ++ [line] ++ s.missed) := by
        rw [List.append_assoc, List.append_assoc _ [line]]
        exact List.perm_append_comm.append_left _
      exact (h.total.append_right [line]).trans hswap
    · intro hidle
      rw [show s.phase.reading = true by rw [hattached]; rfl] at hidle
      cases hidle
    · exact h.events
  · rw [if_neg hattached]
    split
    · constructor
      · show (s.written ++ [line]).Perm
          (s.yielded.map Prod.fst ++ s.output ++ (s.missed ++ [line]))
        rw [← List.append_assoc]
        exact h.total.append_right [line]
      · exact h.idle
      · exact h.events
    · exact h.quiet rfl rfl rfl rfl h.idle

theorem Accounts.attach (h : Accounts platform applicationId s) (hphase : s.phase = .connecting)
    {command : LogsCommand} (hcommand : followCommand s.lastTimestamp = .ok command)
    {backlog : List StoredLine} (hbacklog : backlog.Sublist (command.recalls s.stored)) :
    Accounts platform applicationId
      { s with phase := .attached none, output := backlog, begun := true } := by
  -- no tail is asked for, so a reader prints none of what is stored
  have hnone : backlog = s.output := by
    rw [followCommand_recalls hcommand] at hbacklog
    rw [List.sublist_nil.mp hbacklog, h.idle (by rw [hphase]; rfl)]
  rw [hnone]
  exact h.quiet rfl rfl rfl rfl fun hidle => nomatch hidle

theorem readLine_event {adapter adapter' : ComposeAdapter} {now later : Instant}
    {answer : AdapterResult} {line : RawLine} {event : LogEvent}
    (h : readLine platform applicationId adapter now answer later line = .ok (adapter', event)) :
    ∃ adapter now, event = composeParse platform applicationId adapter now line := by
  simp only [readLine] at h
  split_ifs at h
  · cases h
    exact ⟨_, _, rfl⟩
  · cases hrefresh : refreshServices platform answer adapter with
    | error e =>
      rw [hrefresh] at h
      cases h
    | ok refreshed =>
      rw [hrefresh] at h
      cases h
      exact ⟨_, _, rfl⟩

theorem Accounts.yieldEvent (h : Accounts platform applicationId s) {exit : Option ReaderExit}
    (hphase : s.phase = .attached exit) {line : StoredLine} {rest : List StoredLine}
    (houtput : s.output = line :: rest) (adapter : ComposeAdapter) {event : LogEvent}
    (hevent : ∃ adapter now,
      event = composeParse platform applicationId adapter now (boundLine maxLogLineBytes line.text)) :
    Accounts platform applicationId (s.yieldEvent adapter line rest event) where
  total := by
    have htotal := h.total
    rw [houtput] at htotal
    show s.written.Perm ((s.yielded ++ [(line, event)]).map Prod.fst ++ rest ++ s.missed)
    rw [List.map_append, List.append_assoc _ _ rest]
    exact htotal
  idle := by
    intro hidle
    have hno : s.phase.reading = false := hidle
    rw [hphase] at hno
    cases hno
  events := by
    intro p hp
    rcases List.mem_append.mp hp with hp | hp
    · exact h.events p hp
    · rw [List.mem_singleton.mp hp]
      exact hevent

/-- A reader that is terminated takes what it has printed with it. -/
theorem Accounts.raise (h : Accounts platform applicationId s) (e : PyError) :
    Accounts platform applicationId
      { s with phase := .ended (.raised e), output := [], missed := s.missed ++ s.output } where
  total := by
    have hswap : (s.yielded.map Prod.fst ++ s.output ++ s.missed).Perm
        (s.yielded.map Prod.fst ++ [] ++ (s.missed ++ s.output)) := by
      rw [List.append_nil, List.append_assoc]
      exact List.perm_append_comm.append_left _
    exact h.total.trans hswap
  idle _ := rfl
  events := h.events

theorem Accounts.read (h : Accounts platform applicationId s) {exit : Option ReaderExit}
    (hphase : s.phase = .attached exit) {line : StoredLine} {rest : List StoredLine}
    (houtput : s.output = line :: rest) (now : Instant) (answer : AdapterResult) (later : Instant) :
    Accounts platform applicationId
      (s.read platform applicationId now answer later line rest) := by
  cases hread : readLine platform applicationId s.adapter now answer later
      (boundLine maxLogLineBytes line.text) with
  | error e =>
    rw [Follow.read, if_neg (boundLine_stored line), hread, ← houtput]
    exact h.raise e
  | ok result =>
    rw [Follow.read_ok hread]
    exact h.yieldEvent hphase houtput result.1 (readLine_event hread)

theorem Accounts.refresh (h : Accounts platform applicationId s) {answer : AdapterResult}
    (hstep : s.refresh platform answer = some s') : Accounts platform applicationId s' := by
  unfold Follow.refresh at hstep
  split at hstep
  case h_5 => cases hstep
  all_goals
    rename_i hphase _
    cases hstep
    exact h.quiet rfl rfl rfl rfl fun _ => h.idle (by rw [hphase]; rfl)

theorem Accounts.step (h : Accounts platform applicationId s) {label : FollowLabel}
    (hstep : FollowMoves platform applicationId s label s') :
    Accounts platform applicationId s' := by
  unfold FollowMoves Follow.step at hstep
  cases label with
  | write line =>
    cases hstep
    exact h.write line
  | refresh answer => exact h.refresh hstep
  | attach backlog =>
    simp only at hstep
    split at hstep
    · rename_i hphase hcommand
      split_ifs at hstep with hbacklog
      cases hstep
      exact h.attach hphase hcommand hbacklog
    · cases hstep
  | startFails message =>
    simp only at hstep
    split at hstep
    · rename_i hphase _
      cases hstep
      exact h.quiet rfl rfl rfl rfl fun _ => h.idle (by rw [hphase]; rfl)
    · cases hstep
  | sinceOverflows =>
    simp only at hstep
    split at hstep
    · rename_i hphase _
      cases hstep
      exact h.quiet rfl rfl rfl rfl fun _ => h.idle (by rw [hphase]; rfl)
    · cases hstep
  | read now answer later =>
    simp only at hstep
    split at hstep
    · rename_i hphase houtput
      cases hstep
      exact h.read hphase houtput now answer later
    · cases hstep
  | exit exit =>
    simp only at hstep
    split at hstep
    · cases hstep
      exact h.quiet rfl rfl rfl rfl fun hidle => nomatch hidle
    · cases hstep
  | endOfOutput =>
    simp only at hstep
    split at hstep
    · rename_i hphase houtput
      split at hstep
      · cases hstep
        exact h.quiet rfl rfl rfl rfl fun _ => houtput
      · cases hstep
        exact h.quiet rfl rfl rfl rfl fun _ => houtput
    · cases hstep
  | wake =>
    simp only at hstep
    split at hstep
    · rename_i hphase
      cases hstep
      exact h.quiet rfl rfl rfl rfl fun _ => h.idle (by rw [hphase]; rfl)
    · cases hstep

end Steps

theorem accounts_start (platform : ComposePlatform) (applicationId : String) :
    Accounts platform applicationId {} where
  total := .nil
  idle _ := rfl
  events := by
    intro p hp
    cases hp

theorem accounts_reached {platform : ComposePlatform} {applicationId : String} {s : Follow}
    (h : Reach (FollowMoves platform applicationId) Anyhow {} s) :
    Accounts platform applicationId s :=
  h.invariant (accounts_start platform applicationId) fun _ _ _ haccounts _ hstep =>
    haccounts.step hstep

/-! ### At least once -/

/-- Every line written since a reader was first attached has been yielded or printed by the
reader that is attached, as often as it was written; where none is, all have been yielded. -/
structure AtLeastOnce (platform : ComposePlatform) (applicationId : String) (s : Follow) :
    Prop where
  counted : s.written.Subperm (s.yielded.map Prod.fst ++ s.output)
  drained : s.phase.reading = false → s.output = []
  events : ∀ p ∈ s.yielded, ∃ adapter now,
    p.2 = composeParse platform applicationId adapter now (boundLine maxLogLineBytes p.1.text)

/-- Nothing but objects, where `docker compose ps` answers in JSON at all. -/
def Readable (platform : ComposePlatform) (answer : AdapterResult) : Prop :=
  answer.succeeded = false ∨ answer.message = "" ∨
    match psContainers platform answer.message with
    | .error _ => False
    | .ok none => True
    | .ok (some containers) => ∀ item ∈ containers, ∃ members, item = .obj members

/-- A line is written while a reader is attached, before the first one is or after the end; an
answer that counts while lines are read is readable. -/
def InTime (platform : ComposePlatform) (s : Follow) : FollowLabel → Prop
  | .write _ => s.phase = .attached none ∨ s.begun = false ∨ s.phase.over = true
  | .read _ answer _ => Readable platform answer
  | _ => True

theorem mapM_asObject {containers : List JsonText.Json}
    (h : ∀ item ∈ containers, ∃ members, item = .obj members) :
    ∃ items, containers.mapM asObject = .ok items := by
  apply Traversals.mapM_isOk
  intro item hitem
  obtain ⟨members, rfl⟩ := h item hitem
  exact ⟨members, rfl⟩

theorem refreshServices_ok {platform : ComposePlatform} {answer : AdapterResult}
    (h : Readable platform answer) (adapter : ComposeAdapter) :
    ∃ refreshed, refreshServices platform answer adapter = .ok refreshed := by
  unfold refreshServices
  by_cases hnone : answer.succeeded = false ∨ answer.message = ""
  · rw [if_pos hnone]
    exact ⟨_, rfl⟩
  · rw [if_neg hnone]
    have hread := (or_assoc.mpr h).resolve_left hnone
    cases hcontainers : psContainers platform answer.message with
    | error e =>
      rw [hcontainers] at hread
      exact hread.elim
    | ok found =>
      rw [hcontainers] at hread
      cases found with
      | none => exact ⟨_, rfl⟩
      | some containers =>
        obtain ⟨items, hitems⟩ := mapM_asObject hread
        show ∃ refreshed, (containers.mapM asObject >>= _) = Except.ok refreshed
        rw [hitems]
        exact ⟨_, rfl⟩

theorem readLine_ok {platform : ComposePlatform} {answer : AdapterResult}
    (h : Readable platform answer) (applicationId : String) (adapter : ComposeAdapter)
    (now later : Instant) (line : RawLine) :
    ∃ read, readLine platform applicationId adapter now answer later line = .ok read := by
  simp only [readLine]
  split_ifs
  · exact ⟨_, rfl⟩
  · obtain ⟨refreshed, hrefresh⟩ := refreshServices_ok h adapter
    rw [hrefresh]
    exact ⟨_, rfl⟩

/-- What is missed stays missed, and steps in time miss nothing. -/
theorem missed_step {platform : ComposePlatform} {applicationId : String} {s s' : Follow}
    {label : FollowLabel} (hstep : FollowMoves platform applicationId s label s') :
    s.missed <+: s'.missed ∧ (InTime platform s label → s'.missed = s.missed) := by
  have hsame : s.missed <+: s.missed ∧ (InTime platform s label → s.missed = s.missed) :=
    ⟨List.prefix_rfl, fun _ => rfl⟩
  unfold FollowMoves Follow.step at hstep
  cases label with
  | write line =>
    cases hstep
    unfold Follow.write
    by_cases hattached : s.phase = .attached none
    · rw [if_pos hattached]
      exact hsame
    · rw [if_neg hattached]
      by_cases hgap : (s.begun && !s.phase.over) = true
      · rw [if_pos hgap]
        refine ⟨List.prefix_append _ _, fun hmeets => ?_⟩
        obtain ⟨hbegun, hover⟩ : s.begun = true ∧ s.phase.over = false := by simpa using hgap
        rcases hmeets with hmeets | hmeets | hmeets
        · exact absurd hmeets hattached
        · rw [hbegun] at hmeets
          cases hmeets
        · rw [hover] at hmeets
          cases hmeets
      · rw [if_neg hgap]
        exact hsame
  | refresh answer =>
    simp only [Follow.refresh] at hstep
    split at hstep <;> cases hstep <;> exact hsame
  | attach backlog =>
    simp only at hstep
    split at hstep
    · split_ifs at hstep
      cases hstep
      exact hsame
    · cases hstep
  | startFails message =>
    simp only at hstep
    split at hstep <;> cases hstep
    exact hsame
  | sinceOverflows =>
    simp only at hstep
    split at hstep <;> cases hstep
    exact hsame
  | read now answer later =>
    simp only at hstep
    split at hstep
    · rename_i line rest _ _
      cases hstep
      cases hread : readLine platform applicationId s.adapter now answer later
          (boundLine maxLogLineBytes line.text) with
      | ok read =>
        rw [Follow.read_ok hread]
        exact hsame
      | error e =>
        rw [Follow.read, if_neg (boundLine_stored line), hread]
        refine ⟨List.prefix_append _ _, fun hmeets => ?_⟩
        obtain ⟨read, hok⟩ := readLine_ok hmeets applicationId s.adapter now later
          (boundLine maxLogLineBytes line.text)
        rw [hread] at hok
        cases hok
    · cases hstep
  | exit exit =>
    simp only at hstep
    split at hstep <;> cases hstep
    exact hsame
  | endOfOutput =>
    simp only at hstep
    split at hstep
    · split at hstep <;> cases hstep <;> exact hsame
    · cases hstep
  | wake =>
    simp only at hstep
    split at hstep <;> cases hstep
    exact hsame

/-- No later reader makes up for a line that was missed. -/
theorem missed_for_good {platform : ComposePlatform} {applicationId : String} {s s' : Follow}
    (h : Reach (FollowMoves platform applicationId) Anyhow s s') : s.missed <+: s'.missed :=
  h.invariant (I := fun t : Follow => s.missed <+: t.missed) List.prefix_rfl
    fun _ _ _ hkept _ hstep => hkept.trans (missed_step hstep).1

theorem Accounts.atLeastOnce_iff {platform : ComposePlatform} {applicationId : String} {s : Follow}
    (h : Accounts platform applicationId s) :
    AtLeastOnce platform applicationId s ↔ s.missed = [] := by
  constructor
  · intro honce
    have hcount := h.total.length_eq
    have hle := honce.counted.length_le
    rw [List.length_append] at hcount
    exact List.eq_nil_of_length_eq_zero (by omega)
  · intro hmissed
    have htotal := h.total
    rw [hmissed, List.append_nil] at htotal
    exact ⟨htotal.subperm, h.idle, h.events⟩

/-- The loop can read all that the reader has printed, and yields it. -/
theorem output_yielded {platform : ComposePlatform} (applicationId : String) {s : Follow}
    {exit : Option ReaderExit} (hphase : s.phase = .attached exit) {answer : AdapterResult}
    (hanswer : Readable platform answer) (now : Instant) :
    ∃ s', Reach (FollowMoves platform applicationId) (InTime platform) s s' ∧ s'.output = [] ∧
      s'.yielded.map Prod.fst = s.yielded.map Prod.fst ++ s.output := by
  induction houtput : s.output generalizing s with
  | nil => exact ⟨s, .start, houtput, by simp⟩
  | cons line rest ih =>
    obtain ⟨⟨adapter, event⟩, hread⟩ := readLine_ok hanswer applicationId s.adapter now now
      (boundLine maxLogLineBytes line.text)
    have hmeets : InTime platform s (.read now answer now) := hanswer
    have hstep : FollowMoves platform applicationId s (.read now answer now)
        (s.yieldEvent adapter line rest event) := by
      unfold FollowMoves Follow.step
      simp only [hphase, houtput]
      rw [Follow.read_ok hread]
    obtain ⟨s', hreach, hempty, hyielded⟩ := 
      ih (s := s.yieldEvent adapter line rest event) hphase rfl
    refine ⟨s', (Reach.next .start hmeets hstep).trans hreach, hempty, ?_⟩
    rw [hyielded, Follow.yieldEvent, List.map_append, List.append_assoc]
    rfl

/-- **Compose lines are yielded at least once**, in every run in which none is written between
two readers; whatever the run, just as long as none has been missed. -/
theorem compose_at_least_once (platform : ComposePlatform) (applicationId : String) (s : Follow) :
    (Reach (FollowMoves platform applicationId) (InTime platform) {} s →
      AtLeastOnce platform applicationId s) ∧
    (Reach (FollowMoves platform applicationId) Anyhow {} s →
      (AtLeastOnce platform applicationId s ↔ s.missed = [])) := by
  constructor
  · intro h
    have hmissed : s.missed = [] := by
      apply h.invariant (I := fun t : Follow => t.missed = []) rfl
      intro t label t' hnone hmeets hstep
      rw [(missed_step hstep).2 hmeets]
      exact hnone
    exact (accounts_reached (h.weaken fun _ _ _ => trivial)).atLeastOnce_iff.mpr hmissed
  · intro h
    exact (accounts_reached h).atLeastOnce_iff

/-! ### Two runs -/

/-- A platform that reads the times `isoformat` writes. -/
def plainComposePlatform : ComposePlatform where
  toPlatform := plainPlatform
  nonzero
    | .finite mantissa _ => decide (mantissa ≠ 0)
    | _ => true
  fromisoformat text :=
    (IsoTime.fromisoformat text).map fun stamp => stamp.instant - 62135596800000000

def runningAnswer : AdapterResult where
  succeeded := true
  message := JsonText.dumpsStrings
    [("Name", "project-api-1"), ("Service", "api"), ("State", "running")]

/-- What is known after such an answer. -/
def runningAdapter : ComposeAdapter where
  containerServices := addContainer plainComposePlatform ∅
    [("Name", .str "project-api-1"), ("Service", .str "api"), ("State", .str "running")]
  hasRunningContainers := true

theorem runningAnswer_loads :
    loads plainComposePlatform.recursionLimit runningAnswer.message = .ok (.obj
      [("Name", .str "project-api-1"), ("Service", .str "api"), ("State", .str "running")]) :=
  loads_dumpsStrings (by decide) ("Name", "project-api-1")
    [("Service", "api"), ("State", "running")]

theorem refreshServices_running (adapter : ComposeAdapter) :
    refreshServices plainComposePlatform runningAnswer adapter = .ok (true, runningAdapter) := by
  have hmessage : ¬ (runningAnswer.succeeded = false ∨ runningAnswer.message = "") := by
    decide +kernel
  rw [refreshServices, if_neg hmessage]
  simp only [psContainers, runningAnswer_loads]
  rfl

theorem runningAnswer_readable : Readable plainComposePlatform runningAnswer := by
  refine Or.inr (Or.inr ?_)
  simp only [psContainers, runningAnswer_loads]
  intro item hitem
  exact ⟨_, List.mem_singleton.mp hitem⟩

def apiLine : StoredLine where
  time := 1784577600500000
  text := "api-1  | 2026-07-20T20:00:00.500000Z ready".toUTF8.toList
  nonempty := by decide +kernel
  oneLine := by decide +kernel

def apiEvent : LogEvent :=
  composeParse plainComposePlatform "app" runningAdapter 0 (boundLine maxLogLineBytes apiLine.text)

example : apiEvent.message = "ready" ∧ apiEvent.service = some "api" ∧
    apiEvent.timestamp = apiLine.time := by
  decide +kernel

theorem readLine_api :
    readLine plainComposePlatform "app" runningAdapter 0 runningAnswer 0
      (boundLine maxLogLineBytes apiLine.text) = .ok (runningAdapter, apiEvent) := by
  have hknown : runningAdapter.knows apiEvent = true := by decide +kernel
  simp only [readLine]
  exact if_pos hknown

/-- Another reader is attached where the first one has exited and is read to its end. -/
theorem reconnects {s : Follow} (hphase : s.phase = .attached (some {})) (houtput : s.output = [])
    {command : LogsCommand} (hcommand : followCommand s.lastTimestamp = .ok command) :
    Reach (FollowMoves plainComposePlatform "app") (InTime plainComposePlatform) s
      { s with adapter := runningAdapter, phase := .attached none, output := [], begun := true } := by
  have hend : FollowMoves plainComposePlatform "app" s .endOfOutput
      { s with phase := .reconnecting } := by
    unfold FollowMoves Follow.step
    simp only [hphase, houtput]
    rfl
  have hrefresh : FollowMoves plainComposePlatform "app" { s with phase := .reconnecting }
      (.refresh runningAnswer) { s with adapter := runningAdapter, phase := .sleeping } := by
    unfold FollowMoves Follow.step Follow.refresh
    simp only [refreshServices_running, if_true]
  have hwake : FollowMoves plainComposePlatform "app"
      { s with adapter := runningAdapter, phase := .sleeping } .wake
      { s with adapter := runningAdapter, phase := .connecting } := rfl
  have hattach : FollowMoves plainComposePlatform "app"
      { s with adapter := runningAdapter, phase := .connecting } (.attach [])
      { s with adapter := runningAdapter, phase := .attached none, output := [], begun := true } := by
    unfold FollowMoves Follow.step
    simp only [hcommand, List.nil_sublist, if_true]
  refine (((Reach.start.next ?_ hend).next ?_ hrefresh).next ?_ hwake).next ?_ hattach
  all_goals exact trivial

def firstReader : Follow where
  adapter := runningAdapter
  phase := .attached none
  begun := true

theorem firstReader_reached :
    Reach (FollowMoves plainComposePlatform "app") (InTime plainComposePlatform) {}
      firstReader := by
  apply Reach.of_foldlM (fun _ _ _ h => h) [.refresh runningAnswer, .attach []]
  · simp [InTime]
  · simp only [List.foldlM_cons, List.foldlM_nil, Follow.step, Follow.refresh,
      refreshServices_running]
    rfl

/-- The reader was given the line, and has exited. -/
def printed : Follow :=
  { firstReader.write apiLine with phase := .attached (some {}) }

theorem printed_reached :
    Reach (FollowMoves plainComposePlatform "app") (InTime plainComposePlatform) {} printed := by
  have hwrite : FollowMoves plainComposePlatform "app" firstReader (.write apiLine)
      (firstReader.write apiLine) := rfl
  have hexit : FollowMoves plainComposePlatform "app" (firstReader.write apiLine) (.exit {})
      printed := rfl
  have hmeets : InTime plainComposePlatform firstReader (.write apiLine) := .inl rfl
  exact (firstReader_reached.next hmeets hwrite).next (show InTime _ _ (.exit {}) from trivial) hexit

/-- The line was read, and another reader is attached. -/
def secondReader : Follow :=
  { printed.yieldEvent runningAdapter apiLine [] apiEvent with phase := .attached none }

theorem compose_at_least_once_reconnect :
    AtLeastOnce plainComposePlatform "app" secondReader := by
  have hread : FollowMoves plainComposePlatform "app" printed (.read 0 runningAnswer 0)
      (printed.yieldEvent runningAdapter apiLine [] apiEvent) := by
    show some (printed.read _ _ _ _ _ apiLine []) = _
    rw [Follow.read_ok readLine_api]
  have hcommand : followCommand (some apiEvent.timestamp) = .ok ⟨0, some apiEvent.timestamp⟩ := by
    decide +kernel
  have hmeets : InTime plainComposePlatform printed (.read 0 runningAnswer 0) :=
    runningAnswer_readable
  have hyielded := printed_reached.next hmeets hread
  exact (compose_at_least_once plainComposePlatform "app" secondReader).1
    (hyielded.trans (reconnects rfl rfl hcommand))

/-- Every answer says that a container runs. -/
def KeepsRunning (platform : ComposePlatform) (s : Follow) : FollowLabel → Prop
  | .refresh answer =>
    ∃ adapter, refreshServices platform answer s.adapter = .ok (true, adapter)
  | .read _ answer _ => Readable platform answer
  | _ => True

/-- The line was written while no reader was attached. -/
def betweenReaders : Follow :=
  { firstReader with
    stored := [apiLine]
    written := [apiLine]
    missed := [apiLine] }

/-- **A line written between two readers is never yielded.** -/
theorem compose_gap_loses :
    ¬ ∀ (platform : ComposePlatform) (applicationId : String) (s : Follow),
      Reach (FollowMoves platform applicationId) (KeepsRunning platform) {} s →
      AtLeastOnce platform applicationId s := by
  intro h
  have hreach : Reach (FollowMoves plainComposePlatform "app")
      (KeepsRunning plainComposePlatform) {} betweenReaders := by
    apply Reach.of_foldlM (fun _ _ _ h => h) [.refresh runningAnswer, .attach [], .exit {},
      .endOfOutput, .write apiLine, .refresh runningAnswer, .wake, .attach []]
    · simp [KeepsRunning, refreshServices_running]
    · simp only [List.foldlM_cons, List.foldlM_nil, Follow.step, Follow.refresh,
        refreshServices_running]
      rfl
  have hcounted := (h _ _ _ hreach).counted.length_le
  exact absurd hcounted (by decide)

end MachineDeck.Logs

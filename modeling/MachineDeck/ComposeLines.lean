import MachineDeck.JournalLog
import MachineDeck.LifecycleService
import Mathlib.Data.List.AList
import Mathlib.Data.List.DropRight

/-!
# The lines of Docker Compose

What `DockerComposeLogAdapter` of `logging/adapters.py` reads out of `docker compose ps` and out of
a line of `docker compose logs --timestamps`.

* `refreshServices` — `_refresh_services`: the names the containers go by, and whether one runs;
* `composeLine`, `parseComposeTimestamp` — the parts of a line, and the moment it names;
* `normalizedTimestamp_nanoseconds` — a moment in nanoseconds is cut to microseconds;
* `composeParse` — `_parse`.
-/

namespace MachineDeck.Logs

open JsonText (Json Decimal loads member?)
open LineText (isSpace strip splitlines)
open Lifecycle (AdapterResult)

/-- Besides: which numbers that are not integers are not zero, and the moment that
`datetime.fromisoformat` reads in a text. -/
structure ComposePlatform extends Platform where
  nonzero : Decimal → Bool
  fromisoformat : List Char → Option Instant

/-- `\d`. -/
def ComposePlatform.digit (platform : ComposePlatform) (c : Char) : Bool :=
  (platform.decimalDigit c).isSome

/-! ### The containers -/

/-- The names of the containers, each with its service and its id. -/
abbrev Aliases := AList fun _ : String => String × Option String

structure ComposeAdapter where
  containerServices : Aliases := ∅
  hasRunningContainers : Bool := false

def truthy (platform : ComposePlatform) : Json → Bool
  | .null => false
  | .bool value => value
  | .int value => decide (value ≠ 0)
  | .decimal value => platform.nonzero value
  | .str text => decide (text ≠ "")
  | .arr items => !items.isEmpty
  | .obj members => !members.isEmpty

/-- A member on the left of an `or`. -/
def trueMember? (platform : ComposePlatform) (item : List (String × Json)) (name : String) :
    Option Json :=
  (member? item name).filter (truthy platform)

/-- `re.search(rf"(?:^|-){re.escape(service)}-(\d+)$", name)`, and the digits it finds. -/
def instanceNumber (digit : Char → Bool) (service name : List Char) : Option (List Char) :=
  let name := if name.getLast? = some '\n' then name.dropLast else name
  let number := name.rtakeWhile (· ≠ '-')
  let before := name.rdropWhile (· ≠ '-')
  if before = service ++ ['-'] ∨ '-' :: (service ++ ['-']) <:+ before then
    if number ≠ [] ∧ number.all digit then some number else none
  else none

example : instanceNumber Char.isDigit "api".toList "project-api-1".toList = some ['1'] := by decide
example : instanceNumber Char.isDigit "api".toList "project-rapi-1".toList = none := by decide

def addContainer (platform : ComposePlatform) (aliases : Aliases) (item : List (String × Json)) :
    Aliases :=
  let text := messageText platform.toPlatform
  let name := text (trueMember? platform item "Name" <|> trueMember? platform item "Names")
  let service := text (trueMember? platform item "Service" <|> some (.str "unknown"))
  let containerId := (trueMember? platform item "ID").map fun id => text (some id)
  let aliases :=
    if name = "" then aliases
    else
      let aliases := aliases.insert name (service, containerId)
      match instanceNumber platform.digit service.toList name.toList with
      | some number => aliases.insert (service ++ "-" ++ String.ofList number) (service, containerId)
      | none => aliases
  if service ∈ aliases then aliases else aliases.insert service (service, containerId)

/-- `str.lower`, as far as it makes the letters of `running` and `up`. -/
def lower (text : String) : List Char := text.toList.map Char.toLower

def containerRuns (platform : ComposePlatform) (item : List (String × Json)) : Bool :=
  let text := messageText platform.toPlatform
  decide (lower (text (member? item "State")) = "running".toList) ||
    "up".toList.isPrefixOf (lower (text (member? item "Status")))

/-- The items of the output; none where it is neither JSON nor lines of JSON. -/
def psContainers (platform : ComposePlatform) (message : String) :
    Except PyError (Option (List Json)) :=
  match loads platform.recursionLimit message with
  | .ok (.arr items) => .ok (some items)
  | .ok payload => .ok (some [payload])
  | .error .invalid =>
    match ((splitlines message).filter (· ≠ "")).mapM (loads platform.recursionLimit) with
    | .ok items => .ok (some items)
    | .error .invalid => .ok none
    | .error e => .error (.ofLoads e)
  | .error e => .error (.ofLoads e)

/-- `_refresh_services`, with what it returns. -/
def refreshServices (platform : ComposePlatform) (answer : AdapterResult)
    (adapter : ComposeAdapter) : Except PyError (Bool × ComposeAdapter) :=
  if answer.succeeded = false ∨ answer.message = "" then .ok (false, {})
  else do
    match ← psContainers platform answer.message with
    | none => return (false, adapter)
    | some containers =>
      let items ← containers.mapM asObject
      let running := items.any (containerRuns platform)
      return (running,
        { containerServices := items.foldl (addContainer platform) ∅
          hasRunningContainers := running })

/-! ### The parts of a line -/

structure ComposeLine where
  container : List Char
  timestamp : Option (List Char)
  message : List Char
  deriving DecidableEq, Repr

/-- `\d{4}-\d{2}-\d{2}T\S+`, of a text without blanks. -/
def looksLikeTime (digit : Char → Bool) : List Char → Bool
  | y₁ :: y₂ :: y₃ :: y₄ :: '-' :: m₁ :: m₂ :: '-' :: d₁ :: d₂ :: 'T' :: _ :: _ =>
    [y₁, y₂, y₃, y₄, m₁, m₂, d₁, d₂].all digit
  | _ => false

/-- `COMPOSE_LINE`, its first group stripped. -/
def composeLine (digit : Char → Bool) (decoded : List Char) : Option ComposeLine :=
  match decoded.takeWhile (· ≠ '|'), decoded.dropWhile (· ≠ '|') with
  | c :: container, _ :: rest =>
    let rest := rest.dropWhile isSpace
    let word := rest.takeWhile (!isSpace ·)
    let after := rest.dropWhile (!isSpace ·)
    -- blanks must follow the time, so a line that ends with it has no time
    if looksLikeTime digit word ∧ after ≠ [] then
      some ⟨strip (c :: container), some word, after.dropWhile isSpace⟩
    else some ⟨strip (c :: container), none, rest⟩
  | _, _ => none

example : composeLine Char.isDigit "api-1  | 2026-07-20T20:00:00.5Z  a | b".toList =
    some ⟨"api-1".toList, some "2026-07-20T20:00:00.5Z".toList, "a | b".toList⟩ := by
  decide +kernel

/-! ### The moment of a line -/

/-- `(?=Z|[+-])`. -/
def beforeOffset : List Char → Bool
  | [] => false
  | c :: _ => c == 'Z' || c == '+' || c == '-'

/-- `re.sub(r"(\.\d{6})\d+(?=Z|[+-])", r"\1", value)`; the first argument counts the digits that
have been dealt with. -/
def cutFractions (digit : Char → Bool) : ℕ → List Char → List Char
  | _, [] => []
  | n + 1, _ :: rest => cutFractions digit n rest
  | 0, c :: rest =>
    let digits := rest.takeWhile digit
    if c = '.' ∧ 6 < digits.length ∧ beforeOffset (rest.dropWhile digit) = true then
      c :: (digits.take 6 ++ cutFractions digit digits.length rest)
    else c :: cutFractions digit 0 rest

/-- A moment with no more digits than Python 3.10 reads. -/
def normalizedTimestamp (digit : Char → Bool) (value : List Char) : List Char :=
  (cutFractions digit 0 value).flatMap fun c => if c = 'Z' then "+00:00".toList else [c]

def parseComposeTimestamp (platform : ComposePlatform) (now : Instant) :
    Option (List Char) → Instant
  | none => now
  | some value => (platform.fromisoformat (normalizedTimestamp platform.digit value)).getD now

theorem cutFractions_skip (digit : Char → Bool) (digits rest : List Char) :
    cutFractions digit digits.length (digits ++ rest) = cutFractions digit 0 rest := by
  induction digits with
  | nil => rfl
  | cons d digits ih => exact ih

theorem cutFractions_plain (digit : Char → Bool) (text rest : List Char) (h : '.' ∉ text) :
    cutFractions digit 0 (text ++ rest) = text ++ cutFractions digit 0 rest := by
  induction text with
  | nil => rfl
  | cons c text ih =>
    have hc : c ≠ '.' := fun hc => h (hc ▸ List.mem_cons_self)
    rw [List.cons_append, cutFractions, if_neg (fun hif => hc hif.1),
      ih fun hmem => h (List.mem_cons_of_mem _ hmem)]
    rfl

/-- Of the digits behind the seconds six are left. -/
theorem cutFractions_digits {digit : Char → Bool} {time digits behind : List Char}
    (htime : '.' ∉ time) (hdigits : ∀ c ∈ digits, digit c = true) (hlong : 6 < digits.length)
    (hbehind : '.' ∉ behind) (hoffset : beforeOffset behind = true)
    (hstop : behind.takeWhile digit = []) :
    cutFractions digit 0 (time ++ '.' :: (digits ++ behind)) =
      time ++ '.' :: (digits.take 6 ++ behind) := by
  have hdrop : behind.dropWhile digit = behind := by
    have hsplit := List.takeWhile_append_dropWhile (p := digit) (l := behind)
    rwa [hstop] at hsplit
  have hplain := cutFractions_plain digit behind [] hbehind
  rw [List.append_nil, cutFractions, List.append_nil] at hplain
  rw [cutFractions_plain digit time _ htime, cutFractions,
    List.takeWhile_append_of_pos hdigits, List.dropWhile_append_of_pos hdigits, hstop, hdrop,
    List.append_nil, if_pos ⟨rfl, hlong, hoffset⟩, cutFractions_skip, hplain]

/-- `replace("Z", "+00:00")` on a text without the letter. -/
theorem replace_zulu {text : List Char} (h : 'Z' ∉ text) :
    (text.flatMap fun c => if c = 'Z' then "+00:00".toList else [c]) = text := by
  induction text with
  | nil => rfl
  | cons c text ih =>
    have hc : c ≠ 'Z' := fun hc => h (hc ▸ List.mem_cons_self)
    rw [List.flatMap_cons, if_neg hc, ih fun hmem => h (List.mem_cons_of_mem _ hmem)]
    rfl

/-- What Docker writes in nanoseconds is read in microseconds. -/
theorem normalizedTimestamp_nanoseconds {digit : Char → Bool} {time digits : List Char}
    (htime : ∀ c ∈ time, c ≠ '.' ∧ c ≠ 'Z') (hdigits : ∀ c ∈ digits, digit c = true ∧ c ≠ 'Z')
    (hlong : 6 < digits.length) (hz : digit 'Z' = false) :
    normalizedTimestamp digit (time ++ '.' :: (digits ++ ['Z'])) =
      time ++ '.' :: (digits.take 6 ++ "+00:00".toList) := by
  have hstop : ['Z'].takeWhile digit = [] := by simp [hz]
  have hcut := cutFractions_digits (fun hmem => (htime _ hmem).1 rfl) (fun c hc => (hdigits c hc).1)
    hlong (by decide) rfl hstop
  have htime' : 'Z' ∉ time := fun hmem => (htime _ hmem).2 rfl
  have hdigits' : 'Z' ∉ digits.take 6 := fun hmem => (hdigits _ (List.mem_of_mem_take hmem)).2 rfl
  rw [normalizedTimestamp, hcut, List.flatMap_append, replace_zulu htime', List.flatMap_cons,
    List.flatMap_append, replace_zulu hdigits']
  rfl

/-! ### A line as an event -/

/-- `_parse`; `now` is the time where the line names none. -/
def composeParse (platform : ComposePlatform) (applicationId : String) (adapter : ComposeAdapter)
    (now : Instant) (line : RawLine) : LogEvent :=
  let decoded := Utf8Text.decode line.raw
  let event (service containerId : Option String) (timestamp : Instant) (message : String) :
      LogEvent :=
    let (message, messageTruncated, messageSize) := boundedMessage maxLogLineBytes message
    { applicationId, timestamp, source := .docker, message, service, containerId,
      truncated := line.truncated || messageTruncated,
      originalSize := some (if line.truncated then line.originalSize else messageSize) }
  match composeLine platform.digit decoded.toList with
  | some parts =>
    let container := String.ofList parts.container
    let (service, containerId) :=
      (adapter.containerServices.lookup container).getD (container, none)
    event (some service) containerId (parseComposeTimestamp platform now parts.timestamp)
      (String.ofList parts.message)
  | none => event none none now decoded

/-- `event.service not in known_services`, negated. -/
def ComposeAdapter.knows (adapter : ComposeAdapter) (event : LogEvent) : Bool :=
  adapter.containerServices.entries.any fun entry => some entry.2.1 == event.service

end MachineDeck.Logs

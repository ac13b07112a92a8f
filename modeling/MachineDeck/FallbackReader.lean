import MachineDeck.JsonDump
import MachineDeck.JsonStrings
import MachineDeck.ServerFile
import MachineDeck.Traversals

/-!
# Reading the configuration without TOML

`_minimal_server_configuration` of the deployment script: where Python has no TOML reader, the file
is scanned line by line, and every value is taken for JSON.

* `classify`, `scanLine`, `scan` — headers and assignments; of several assignments the last counts;
* `minimalServerConfiguration` — the configuration that they come to;
* `scan_append`, `scan_behind` — a scan goes on where another ended, whatever was assigned before.

The reader's own error is a `DeployError`.  The `ValueError` of an integer with too many digits and
a `RecursionError` pass through it.
-/

namespace MachineDeck.Access

open JsonText (Json)
open LineText (partitionChars splitlinesFrom strip)
open TomlText (Table Toml)
open Traversals

inductive FallbackError where
  | install (error : InstallError)
  | recursionError
  deriving DecidableEq, Repr

/-! ### Values -/

mutual

/-- A JSON value.  `None` is neither a text nor a number, and prints as this word. -/
def pythonValue : Json → Toml
  | .null => .time "None"
  | .bool value => .bool value
  | .int value => .int value
  | .decimal value => .float value
  | .str value => .str value
  | .arr items => .arr (pythonValues items)
  | .obj members => .table (JsonDump.dictOf (pythonMembers members))

def pythonValues : List Json → List Toml
  | [] => []
  | value :: items => pythonValue value :: pythonValues items

def pythonMembers : List (String × Json) → Table
  | [] => []
  | (name, value) :: members => (name, pythonValue value) :: pythonMembers members

end

theorem pythonValues_str (texts : List (List Char)) :
    pythonValues (texts.map fun s => Json.str (String.ofList s)) =
      texts.map fun s => Toml.str (String.ofList s) := by
  induction texts with
  | nil => rfl
  | cons s texts ih =>
    show Toml.str (String.ofList s) :: pythonValues (texts.map _) = _
    rw [ih]
    rfl

/-- What a `for` goes through, none where it is a `TypeError`. -/
def iterated : Toml → Option (List Toml)
  | .arr items => some items
  | .table entries => some (entries.map fun entry => .str entry.1)
  | .str value => some (value.toList.map fun c => .str c.toString)
  | _ => none

/-! ### Lines -/

def settingSections : List String := ["server", "security", "network"]

def settingNames : List String :=
  ["mode", "host", "port", "cookie_secure", "trusted_proxies", "trusted_networks"]

inductive RawLine where
  | ignored
  | header (name : String)
  | pair (name value : String)
  deriving DecidableEq, Repr

def classify (raw : List Char) : RawLine :=
  let line := strip raw
  if line = [] ∨ line.head? = some '#' then .ignored
  else if line.head? = some '[' ∧ line.getLast? = some ']' then
    .header (String.ofList (strip line.tail.dropLast))
  else
    match partitionChars '=' line with
    | (key, some value) => .pair (String.ofList (strip key)) (String.ofList (strip value))
    | (_, none) => .ignored

/-- The assignments, the last one first. -/
abbrev Assigned := List ((String × String) × Toml)

structure Scan where
  table : String := ""
  values : Assigned := []

def Scan.behind (seen : Scan) (earlier : Assigned) : Scan :=
  { seen with values := seen.values ++ earlier }

def loadsError : JsonText.LoadsError → FallbackError
  | .invalid => .install (.deployError
      "Python 3.10 installations require tomli to read customized TOML values")
  | .digits => .install .valueError
  | .recursion => .recursionError

def scanLine (limit : ℕ) (seen : Scan) (raw : List Char) : Except FallbackError Scan :=
  match classify raw with
  | .ignored => .ok seen
  | .header name => .ok { seen with table := name }
  | .pair name value =>
    if seen.table ∈ settingSections ∧ name ∈ settingNames then
      match JsonText.loads limit value with
      | .ok parsed =>
        .ok { seen with values := ((seen.table, name), pythonValue parsed) :: seen.values }
      | .error e => .error (loadsError e)
    else .ok seen

def scan (limit : ℕ) (seen : Scan) (lines : List (List Char)) : Except FallbackError Scan :=
  lines.foldlM (scanLine limit) seen

/-! ### The configuration -/

def fallbackConfiguration (interp : Interpreter) (values : Assigned) :
    Except InstallError ServerConfiguration :=
  let host := pyText interp ((values.lookup ("server", "host")).getD (.str "127.0.0.1"))
  let inferredMode := if host ∈ ["0.0.0.0", "::"] then "lan" else "local"
  let port := pyInt interp ((values.lookup ("server", "port")).getD (.int 8080))
  let proxies := iterated ((values.lookup ("network", "trusted_proxies")).getD (.arr []))
  let networks := iterated
    ((values.lookup ("network", "trusted_networks")).getD (.arr (defaultNetworks.map .str)))
  match port, proxies, networks with
  | .error .overflowError, _, _ => .error .overflowError
  | .ok port, some proxies, some networks =>
    .ok {
      mode := pyText interp ((values.lookup ("server", "mode")).getD (.str inferredMode))
      host := host
      port := port
      cookieSecure := (values.lookup ("security", "cookie_secure")).getD (.bool true)
      trustedProxies := proxies.map (pyText interp)
      trustedNetworks := networks.map (pyText interp) }
  | _, _, _ => .error (.deployError "server.port must be an integer")

/-- Of the text of the file, whose lines end wherever `splitlines` ends one. -/
def minimalServerConfiguration (interp : Interpreter) (limit : ℕ) (text : String) :
    Except FallbackError ServerConfiguration := do
  let seen ← scan limit {} (splitlinesFrom [] text.toList)
  let configuration ← (fallbackConfiguration interp seen.values).mapError .install
  (validateServerConfiguration interp configuration).mapError .install
  return configuration

/-! ### Scans in a row -/

section Scans

variable {limit : ℕ} {seen : Scan} {raw : List Char} {name value : String}

theorem scanLine_ignored (h : classify raw = .ignored) : scanLine limit seen raw = .ok seen := by
  rw [scanLine, h]

theorem scanLine_header (h : classify raw = .header name) :
    scanLine limit seen raw = .ok { seen with table := name } := by
  rw [scanLine, h]

/-- An assignment that the reader has no use for. -/
theorem scanLine_other (h : classify raw = .pair name value) (hname : name ∉ settingNames) :
    scanLine limit seen raw = .ok seen := by
  rw [scanLine, h]
  exact if_neg fun hboth => hname hboth.2

theorem scanLine_pair (h : classify raw = .pair name value)
    (hsection : seen.table ∈ settingSections) (hname : name ∈ settingNames) :
    scanLine limit seen raw =
      match JsonText.loads limit value with
      | .ok parsed =>
        .ok { seen with values := ((seen.table, name), pythonValue parsed) :: seen.values }
      | .error e => .error (loadsError e) := by
  rw [scanLine, h]
  exact if_pos ⟨hsection, hname⟩

theorem scan_append (limit : ℕ) (seen : Scan) (lines more : List (List Char)) :
    scan limit seen (lines ++ more) = (scan limit seen lines).bind fun seen =>
      scan limit seen more := by
  rw [scan, List.foldlM_append]
  rfl

/-- What was assigned before has no part in what a line does. -/
theorem scanLine_behind (limit : ℕ) (seen : Scan) (raw : List Char) (earlier : Assigned) :
    scanLine limit (seen.behind earlier) raw =
      (scanLine limit seen raw).map fun found => found.behind earlier := by
  cases hline : classify raw with
  | ignored => rw [scanLine_ignored hline, scanLine_ignored hline]; rfl
  | header name => rw [scanLine_header hline, scanLine_header hline]; rfl
  | pair name value =>
    by_cases hused : seen.table ∈ settingSections ∧ name ∈ settingNames
    · have hbehind : (seen.behind earlier).table ∈ settingSections := hused.1
      rw [scanLine_pair hline hused.1 hused.2, scanLine_pair hline hbehind hused.2]
      cases JsonText.loads limit value <;> rfl
    · simp only [scanLine, hline]
      rw [if_neg hused, if_neg (show ¬ ((seen.behind earlier).table ∈ settingSections ∧
        name ∈ settingNames) from hused)]
      rfl

theorem scan_behind (limit : ℕ) (seen : Scan) (lines : List (List Char)) (earlier : Assigned) :
    scan limit (seen.behind earlier) lines =
      (scan limit seen lines).map fun found => found.behind earlier := by
  induction lines generalizing seen with
  | nil => rfl
  | cons raw lines ih =>
    show (scanLine limit (seen.behind earlier) raw).bind (fun seen => scan limit seen lines) =
      ((scanLine limit seen raw).bind fun seen => scan limit seen lines).map _
    rw [scanLine_behind]
    cases scanLine limit seen raw with
    | error e => rfl
    | ok found => exact ih found

end Scans

end MachineDeck.Access

import Mathlib.Data.List.Sort
import Mathlib.Data.String.Basic
import MachineDeck.LineText
import MachineDeck.ManifestSchema

/-!
# Rendering user units

The pure part of `systemd/user_units.py`: from a manifest to the text of its unit file.

* `unitNameFor` — the name of the unit of an application;
* `quote`, `escapePath` — the two ways a value is written into a line;
* `unitLines` — the lines of a unit around the values that are written into it;
* `renderUserUnit`, `validateRenderedUnit`.
-/

namespace MachineDeck.Systemd

open LineText

/-- `UnitError`, with its message. -/
structure UnitError where
  message : String
  deriving DecidableEq, Repr

/-- A check that raises. -/
def require (condition : Bool) (message : String) : Except UnitError Unit :=
  if condition then .ok () else .error ⟨message⟩

/-! ### Names and values -/

def unitNameFor (applicationId : String) : Except UnitError String := do
  let cs := applicationId.toList
  require (!cs.isEmpty && cs.all fun c => lowerOrDigit c || c == '-')
    "Application id cannot be converted to a safe unit name"
  require (cs.head? != some '-' && cs.getLast? != some '-')
    "Application id cannot be converted to a safe unit name"
  return "machinedeck-" ++ applicationId ++ ".service"

def rejectControlCharacters (value field : String) : Except UnitError Unit :=
  require (value.toList.all environmentChar) (field ++ " cannot contain newlines or null bytes")

/-- The replacements of `_quote`, one after the other. -/
def escaped (escapeDollar : Bool) (value : String) : String :=
  let value := replaceChar value '\\' "\\\\"
  let value := replaceChar value '"' "\\\""
  let value := replaceChar value '%' "%%"
  if escapeDollar then replaceChar value '$' "$$" else value

def quote (escapeDollar : Bool) (value : String) : Except UnitError String := do
  rejectControlCharacters value "systemd value"
  return "\"" ++ escaped escapeDollar value ++ "\""

def hexDigit (n : ℕ) : Char :=
  if n < 10 then Char.ofNat (48 + n) else Char.ofNat (87 + n)

/-- The bytes that a path keeps. -/
def safeByte (byte : UInt8) : Bool :=
  97 ≤ byte && byte ≤ 122 || 65 ≤ byte && byte ≤ 90 || 48 ≤ byte && byte ≤ 57 ||
    byte == 47 || byte == 46 || byte == 95 || byte == 45

def escapedByte (byte : UInt8) : List Char :=
  if safeByte byte then [Char.ofNat byte.toNat]
  else if byte == 37 then ['%', '%']
  else ['\\', 'x', hexDigit (byte.toNat / 16), hexDigit (byte.toNat % 16)]

/-- A path as an unquoted setting value. -/
def escapePath (value : String) : Except UnitError String := do
  rejectControlCharacters value "systemd path"
  return String.ofList (value.toUTF8.data.toList.flatMap escapedByte)

/-! ### The text of a unit -/

def sortedItems (environment : Environment) : List (String × String) :=
  environment.entries.insertionSort fun item item' =>
    item.1 < item'.1 ∨ item.1 = item'.1 ∧ item.2 ≤ item'.2

/-- The value of the `Environment` line of one variable. -/
def environmentValue (item : String × String) : Except UnitError String := do
  rejectControlCharacters item.2 ("environment variable " ++ item.1)
  quote false (item.1 ++ "=" ++ item.2)

/-- The lines of a unit whose values are already escaped. -/
def unitLines (unitName workingDirectory execStart : String) (environment : List String) :
    List String :=
  ["# Generated by MachineDeck. Manual changes will be detected and replaced.",
   "[Unit]",
   "Description=MachineDeck managed application " ++ unitName,
   "After=network-online.target",
   "Wants=network-online.target",
   "",
   "[Service]",
   "Type=simple",
   "WorkingDirectory=" ++ workingDirectory,
   "ExecStart=" ++ execStart] ++
  environment.map (fun value => "Environment=" ++ value) ++
  ["KillMode=control-group",
   "TimeoutStartSec=120",
   "TimeoutStopSec=30",
   "Restart=no",
   "NoNewPrivileges=true",
   "",
   "[Install]",
   "WantedBy=default.target",
   ""]

/-! ### Validation -/

def maxUnitBytes : ℕ := 64 * 1024

def allowedDirectives : List String :=
  ["Description", "After", "Wants", "Type", "WorkingDirectory", "ExecStart", "Environment",
   "KillMode", "TimeoutStartSec", "TimeoutStopSec", "Restart", "NoNewPrivileges", "WantedBy"]

/-- The sections and the directives seen so far, in order. -/
structure UnitOutline where
  sections : List String := []
  directives : List String := []

def UnitOutline.addLine (outline : UnitOutline) (line : String) : Except UnitError UnitOutline :=
  let cs := line.toList
  if cs.isEmpty || cs.head? == some '#' then .ok outline
  else if cs.head? == some '[' && cs.getLast? == some ']' then
    .ok { outline with sections := outline.sections ++ [line] }
  else
    match partition line '=' with
    | (key, value) =>
      if value.isNone || !allowedDirectives.contains key then
        .error ⟨"Rendered unit contains an unsupported directive: " ++
          if key.isEmpty then line else key⟩
      else .ok { outline with directives := outline.directives ++ [key] }

def validateRenderedUnit (content : String) : Except UnitError Unit := do
  require (content.toUTF8.size ≤ maxUnitBytes) "Rendered unit exceeds the maximum size"
  require (content.toList.getLast? == some '\n' && !content.toList.contains '\r' &&
    !content.toList.contains '\x00') "Rendered unit contains invalid control characters"
  let outline ← (splitlines content).foldlM UnitOutline.addLine {}
  require (outline.sections == ["[Unit]", "[Service]", "[Install]"])
    "Rendered unit has unexpected or out-of-order sections"
  ["WorkingDirectory", "ExecStart", "KillMode"].forM fun required =>
    require (outline.directives.count required == 1)
      ("Rendered unit must contain exactly one " ++ required ++ " directive")

/-! ### Rendering -/

def renderProcessUnit (manifest : ApplicationManifest) (runtime : ProcessRuntime) :
    Except UnitError String := do
  let unitName ← unitNameFor manifest.id
  let command ← runtime.command.mapM (quote true)
  let workingDirectory ← escapePath runtime.workingDir.text
  let environment ← (sortedItems manifest.environment).mapM environmentValue
  let rendered := "\n".intercalate
    (unitLines unitName workingDirectory (" ".intercalate command) environment)
  validateRenderedUnit rendered
  return rendered

def renderUserUnit (host : HostPaths) (manifest : ApplicationManifest) :
    Except UnitError String :=
  match manifest.runtime with
  | .compose _ => .error ⟨"Only process manifests can render a systemd user unit"⟩
  | .process runtime => do
    let validation := validateManifestPaths host manifest
    require validation.valid
      ("; ".intercalate (validation.errors.map ValidationIssue.message))
    renderProcessUnit manifest runtime

end MachineDeck.Systemd

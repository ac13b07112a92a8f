import MachineDeck.FirstOccurrences
import MachineDeck.IpNetwork
import MachineDeck.LineText
import MachineDeck.PythonNumber
import MachineDeck.TomlText
import MachineDeck.UrlSplit
import Mathlib.Data.List.DropRight
import Mathlib.Data.List.Sort

/-!
# The configuration the installer writes

From the options of an installation to the text of `config.toml`, as
`scripts/machinedeck_deploy.py` has it.

* `Interpreter`, `pyText`, `pyInt`, `truthy` — what Python makes of a value;
* `ServerConfiguration`, `accessConfiguration` — what an access mode and its options come to;
* `validateServerConfiguration` — what must hold of it before it is written;
* `renderLines`, `renderConfig` — the file, line by line and as a text.

`InstallPaths` has the paths that the file names.  Texts hold no surrogates, so a path whose name
is not UTF-8 is left out.
-/

namespace MachineDeck.Access

open FirstOccurrences (firsts)
open IpAddress (Address CanonicalNetwork ipAddress ipNetwork)
open LineText (strip)
open TomlText (Toml jsonString jsonArray unlines)
open UrlSplit (CaseTables SplitResult urlsplit)
open scoped LineText

/-! ### Values -/

/-- Unicode's letters and digits, `str` of a number, an array or a table, and which numbers that
are not integers are not zero. -/
structure Interpreter where
  tables : CaseTables
  decimalDigit : Char → Option ℕ
  str : Toml → String
  nonzero : JsonText.Decimal → Bool

/-- What they come to where all texts are ASCII and every value is a text or an integer. -/
def plainInterpreter : Interpreter where
  tables := ⟨List.map Char.toLower, id⟩
  decimalDigit c := if c.isDigit then some (c.toNat - 48) else none
  str _ := ""
  nonzero _ := true

/-- `str(value)`. -/
def pyText (interp : Interpreter) : Toml → String
  | .str value => value
  | .int value => toString value
  | .bool true => "True"
  | .bool false => "False"
  | .time text => text
  | value => interp.str value

/-- `int(value)`. -/
def pyInt (interp : Interpreter) : Toml → Except PythonNumber.IntError ℤ
  | .int value => .ok value
  | .bool value => .ok (if value then 1 else 0)
  | .float value => PythonNumber.doubleTruncated value
  | .str value =>
    match PythonNumber.intOfText interp.decimalDigit value.toList with
    | some value => .ok value
    | none => .error .valueError
  | _ => .error .typeError

/-- `bool(value)`. -/
def truthy (interp : Interpreter) : Toml → Bool
  | .str value => decide (value ≠ "")
  | .int value => decide (value ≠ 0)
  | .float value => interp.nonzero value
  | .bool value => value
  | .time _ => true
  | .arr items => !items.isEmpty
  | .table entries => !entries.isEmpty

/-- A `DeployError`, or an error that no `try` catches: the `ValueError` of `urlsplit`, and the
`OverflowError` of an infinite number. -/
inductive InstallError where
  | deployError (message : String)
  | valueError
  | overflowError
  deriving DecidableEq, Repr

structure ServerConfiguration where
  mode : String
  host : String
  port : ℤ
  cookieSecure : Toml
  trustedOrigins : List String := []
  publicHostLan : Option Toml := none
  trustedProxies : List String := []
  trustedNetworks : List String := ["127.0.0.0/8", "::1/128"]
  deriving Repr

/-! ### Origins -/

def stripText (value : String) : String := String.ofList (strip value.toList)

/-- `value.strip().rstrip("/")`. -/
def trimOrigin (value : String) : String :=
  String.ofList ((strip value.toList).rdropWhile (· = '/'))

def validateText (value label : String) : Except InstallError String :=
  if value = "" ∨ ∃ c ∈ value.toList, c = '\r' ∨ c = '\n' ∨ c = '\x00' then
    .error (.deployError s!"Invalid {label}")
  else .ok value

/-- More, or less, than a scheme, a host and a port. -/
def strays (tables : CaseTables) (schemes : List String) (parsed : SplitResult) : Bool :=
  !schemes.contains (String.ofList parsed.scheme) || (parsed.hostname tables).getD [] == [] ||
    parsed.username.isSome || parsed.password.isSome ||
    !(parsed.path == [] || parsed.path == ['/']) || parsed.query != [] || parsed.fragment != []

def validatedOrigin (tables : CaseTables) (httpsRequired : Bool) (value : String) :
    Except InstallError String := do
  let normalized ← validateText (trimOrigin value) "trusted Origin"
  match urlsplit tables normalized.toList with
  | none => .error .valueError
  | some parsed =>
    if parsed.port = none then .error (.deployError s!"Invalid trusted Origin: {value}")
    else if httpsRequired = true ∧ parsed.scheme ≠ "https".toList then
      .error (.deployError s!"Trusted Origin must use HTTPS: {value}")
    else if strays tables (if httpsRequired then ["https"] else ["http", "https"]) parsed then
      .error (.deployError s!"Invalid trusted Origin: {value}")
    else .ok normalized

/-! ### The hosts of a LAN -/

/-- What the machine says of itself: `socket.gethostname()`, and the addresses of
`socket.getaddrinfo`, none where it fails. -/
structure LanHost where
  hostname : String
  addresses : String → List String

def lowerText (tables : CaseTables) (value : String) : String :=
  String.ofList (tables.lower value.toList)

def detectedLanHosts (tables : CaseTables) (machine : LanHost) : String × List String :=
  let hostname := lowerText tables (stripText machine.hostname)
  let hostname :=
    if hostname = "" ∨ ∃ c ∈ hostname.toList, c ∈ "\r\n\x00/:".toList then "localhost"
    else hostname
  let addresses := (machine.addresses hostname).filterMap ipAddress
  let outward := addresses.filter fun address =>
    !address.isLoopback && !address.isUnspecified && !address.isLinkLocal
  (hostname, (outward.map Address.str).dedup.mergeSort)

/-- An address as the host of a URL. -/
def urlHost (address : Address) : String :=
  match address with
  | .v4 _ => address.str
  | .v6 _ _ => "[" ++ address.str ++ "]"

def lanOrigin (host : String) : String := "http://" ++ host ++ ":8080"

/-! ### Access modes -/

structure AccessRequest where
  access : String
  trustedOrigins : List String := []
  trustedProxies : List String := []
  trustedNetworks : List String := []
  hostname : Option String := none
  addresses : Option (List String) := none
  deriving DecidableEq, Repr

def installAccessModes : List String := ["local", "lan", "tailscale"]

def serverAccessModes : List String := ["local", "lan", "proxy"]

def defaultNetworks : List String := ["127.0.0.0/8", "::1/128"]

def localOrigins : List String :=
  ["http://127.0.0.1:8080", "http://localhost:8080", "https://127.0.0.1:8080",
    "https://localhost:8080"]

def lanHostname (tables : CaseTables) (machine : LanHost) (request : AccessRequest) : String :=
  lowerText tables (stripText
    (match request.hostname with
      | some hostname => if hostname = "" then (detectedLanHosts tables machine).1 else hostname
      | none => (detectedLanHosts tables machine).1))

def lanAddresses (tables : CaseTables) (machine : LanHost) (request : AccessRequest) :
    List String :=
  request.addresses.getD (detectedLanHosts tables machine).2

def addressHost (raw : String) : Except InstallError String :=
  match ipAddress raw with
  | some address => .ok (urlHost address)
  | none => .error (.deployError s!"Invalid detected LAN address: {raw}")

def accessConfiguration (tables : CaseTables) (machine : LanHost) (request : AccessRequest) :
    Except InstallError ServerConfiguration :=
  if request.access ∉ installAccessModes then
    .error (.deployError s!"Unsupported access mode: {request.access}")
  else do
    let extraOrigins ←
      request.trustedOrigins.mapM (validatedOrigin tables (request.access == "tailscale"))
    let configuredProxies := request.trustedProxies.map stripText
    let configuredNetworks := request.trustedNetworks.map stripText
    if request.access = "local" then
      return {
        mode := "local", host := "127.0.0.1", port := 8080, cookieSecure := .str "auto"
        trustedOrigins := firsts (localOrigins ++ extraOrigins)
        trustedProxies := configuredProxies
        trustedNetworks := firsts (defaultNetworks ++ configuredNetworks) }
    else if request.access = "tailscale" then
      return {
        mode := "proxy", host := "127.0.0.1", port := 8080, cookieSecure := .str "auto"
        trustedOrigins := firsts (localOrigins ++ extraOrigins)
        trustedProxies := firsts ("127.0.0.1/32" :: "::1/128" :: configuredProxies)
        trustedNetworks := firsts (defaultNetworks ++ configuredNetworks) }
    else
      let hostname := lanHostname tables machine request
      let hosts ← (lanAddresses tables machine request).mapM addressHost
      let lanOrigins := (hostname :: hosts).map lanOrigin
      return {
        mode := "lan", host := "0.0.0.0", port := 8080, cookieSecure := .str "auto"
        trustedOrigins := firsts (localOrigins ++ (lanOrigins ++ extraOrigins))
        publicHostLan := some (.str hostname)
        trustedProxies := configuredProxies
        trustedNetworks := firsts (defaultNetworks ++ configuredNetworks) }

/-! ### Validation -/

/-- `str.lower`, as far as it makes the letters of the words it is compared with. -/
def lower (value : String) : String := String.ofList (value.toList.map Char.toLower)

/-- `isinstance(cookie, bool)`, or one of the words. -/
def cookieOk (interp : Interpreter) : Toml → Bool
  | .bool _ => true
  | cookie =>
    ["auto", "secure", "insecure", "true", "false"].contains (lower (pyText interp cookie))

def validateNetworks (label : String) (values : List String) : Except InstallError Unit :=
  values.forM fun value =>
    match ipNetwork value with
    | none => .error (.deployError s!"network.{label} must contain canonical IPv4 or IPv6 CIDRs")
    | some network =>
      if label = "trusted_proxies" ∧ 65536 < network.numAddresses then
        .error (.deployError
          "network.trusted_proxies entries cannot contain more than 65536 addresses")
      else .ok ()

def validateServerConfiguration (interp : Interpreter) (configuration : ServerConfiguration) :
    Except InstallError Unit :=
  if configuration.mode ∉ serverAccessModes then
    .error (.deployError "server.mode must be local, lan, or proxy")
  else
    match ipAddress configuration.host with
    | none => .error (.deployError "server.host must be a literal IP address")
    | some address =>
      if configuration.mode ∈ ["local", "proxy"] ∧ address.isLoopback = false then
        .error (.deployError s!"server.mode={configuration.mode} requires a loopback host")
      else if configuration.mode = "lan" ∧ address.isUnspecified = false then
        .error (.deployError "server.mode=lan requires host 0.0.0.0 or ::")
      else if ¬ (1 ≤ configuration.port ∧ configuration.port ≤ 65535) then
        .error (.deployError "server.port must be between 1 and 65535")
      else if cookieOk interp configuration.cookieSecure = false then
        .error (.deployError "security.cookie_secure has an invalid value")
      else do
        configuration.trustedOrigins.forM fun origin =>
          (validatedOrigin interp.tables false origin).map fun _ => ()
        validateNetworks "trusted_proxies" configuration.trustedProxies
        validateNetworks "trusted_networks" configuration.trustedNetworks

/-! ### The file -/

structure InstallPaths where
  home : String
  state : String
  userUnitDir : String
  deriving DecidableEq, Repr

/-- `paths.state / 'machinedeck.db'`, as a URL. -/
def databaseUrl (paths : InstallPaths) : String :=
  "sqlite:///" ++ (if paths.state = "/" then "" else paths.state) ++ "/machinedeck.db"

def setting (key : String) (value : List Char) : List Char := key.toList ++ " = ".toList ++ value

def tomlString (value : String) : List Char := jsonString value.toList

def tomlStrings (values : List String) : List Char := jsonArray (values.map String.toList)

def cookieToml (interp : Interpreter) : Toml → List Char
  | .bool true => "true".toList
  | .bool false => "false".toList
  | value => tomlString (pyText interp value)

/-- The host that other machines reach, where the file has a line for it. -/
def publicHost (interp : Interpreter) (configuration : ServerConfiguration) : Option String :=
  match configuration.publicHostLan with
  | some host => if truthy interp host then some (pyText interp host) else none
  | none => none

def renderLines (interp : Interpreter) (paths : InstallPaths)
    (configuration : ServerConfiguration) : List (List Char) :=
  ["# MachineDeck configuration. Administrator credentials are never stored here.".toList,
    "[server]".toList,
    setting "mode" (tomlString configuration.mode),
    setting "host" (tomlString configuration.host),
    setting "port" (toString configuration.port).toList] ++
  (publicHost interp configuration).toList.map
    (fun host => setting "public_host_lan" (tomlString host)) ++
  [setting "trusted_origins" (tomlStrings configuration.trustedOrigins),
    [],
    "[security]".toList,
    setting "cookie_secure" (cookieToml interp configuration.cookieSecure),
    [],
    "[network]".toList,
    setting "trusted_proxies" (tomlStrings configuration.trustedProxies),
    setting "trusted_networks" (tomlStrings configuration.trustedNetworks),
    [],
    "[state]".toList,
    setting "database_url" (tomlString (databaseUrl paths)),
    [],
    "[paths]".toList,
    setting "allowed_roots" (tomlStrings [paths.home]),
    setting "monitor_disks" (tomlStrings ["/", paths.home]),
    setting "user_unit_dir" (tomlString paths.userUnitDir)]

def renderConfig (interp : Interpreter) (paths : InstallPaths)
    (configuration : ServerConfiguration) : Except InstallError String := do
  validateServerConfiguration interp configuration
  return String.ofList (unlines (renderLines interp paths configuration))

end MachineDeck.Access

import MachineDeck.AccessConfiguration
import MachineDeck.Traversals

/-!
# The configuration the server reads

What `backend/app/config.py` does when it is imported: the file named by `MACHINEDECK_CONFIG` and
the other variables become the settings, or the import fails.

* `Surroundings` — the interpreter, the variables, and the paths of the machine;
* `accessMode`, `bindHost`, `bindPort`, `cookieSecurity`, `trustedOrigins`, `networks` — one
  setting each, with its defaults and its errors;
* `settingsOf`, `loadSettings` — all that the file has a part in, from its tables and its text.
-/

namespace MachineDeck.Config

open Access (Interpreter lower pyInt pyText serverAccessModes strays stripText trimOrigin truthy)
open FirstOccurrences (addNew firsts)
open IpAddress (CanonicalNetwork ipAddress ipNetwork)
open TomlText (Table Toml defines)
open Traversals (bind_ok)
open UrlSplit (urlsplit)

/-- A `RuntimeError` with its message, or an exception that nothing turns into one. -/
inductive ConfigError where
  | unreadable
  | runtimeError (message : String)
  | typeError
  | overflowError
  deriving DecidableEq, Repr

structure Surroundings extends Interpreter where
  getenv : String → Option String
  backendRoot : String
  projectParent : String
  projectGrandparent : String
  home : String
  /-- `Path(value).expanduser()`, and `.resolve()` behind it. -/
  expanduser : String → String
  resolve : String → String

/-- `_value(section, name, …)`, none where the default counts. -/
def value? (config : Table) (section' name : String) : Option Toml :=
  match config.lookup section' with
  | some (.table entries) => entries.lookup name
  | _ => none

section Settings

variable (env : Surroundings) (config : Table)

/-- `os.getenv(setting, _value(section, name, …))`. -/
def settingValue (setting section' name : String) : Option Toml :=
  match env.getenv setting with
  | some value => some (.str value)
  | none => value? config section' name

/-! ### Mode, host and port -/

def accessMode : Except ConfigError String :=
  let configuredHost :=
    stripText (pyText env.toInterpreter ((value? config "server" "host").getD (.str "127.0.0.1")))
  let inferred := if configuredHost ∈ ["0.0.0.0", "::"] then "lan" else "local"
  let value :=
    (settingValue env config "MACHINEDECK_ACCESS_MODE" "server" "mode").getD (.str inferred)
  let normalized := lower (stripText (pyText env.toInterpreter value))
  if normalized ∈ serverAccessModes then .ok normalized
  else .error (.runtimeError "server.mode must be one of: local, lan, proxy")

def bindHost (accessMode : String) : Except ConfigError String :=
  let default := if accessMode = "lan" then "0.0.0.0" else "127.0.0.1"
  let value :=
    (settingValue env config "MACHINEDECK_BIND_HOST" "server" "host").getD (.str default)
  match ipAddress (stripText (pyText env.toInterpreter value)) with
  | none => .error (.runtimeError "server.host must be a literal IP address")
  | some address =>
    if accessMode ∈ ["local", "proxy"] ∧ address.isLoopback = false then
      .error (.runtimeError s!"server.mode={accessMode} requires a loopback host")
    else if accessMode = "lan" ∧ address.isUnspecified = false then
      .error (.runtimeError "server.mode=lan requires host 0.0.0.0 or ::")
    else .ok address.str

def bindPort : Except ConfigError ℤ :=
  let value := (settingValue env config "MACHINEDECK_BIND_PORT" "server" "port").getD (.int 8080)
  match pyInt env.toInterpreter value with
  | .error .overflowError => .error .overflowError
  | .error _ => .error (.runtimeError "server.port must be an integer")
  | .ok port =>
    if 1 ≤ port ∧ port ≤ 65535 then .ok port
    else .error (.runtimeError "server.port must be between 1 and 65535")

/-! ### Cookies -/

def cookieAlias (normalized : String) : String :=
  if normalized ∈ ["true", "yes", "1"] then "secure"
  else if normalized ∈ ["false", "no", "0"] then "insecure"
  else normalized

/-- The policy, and what it comes to. -/
def cookieSecurity (accessMode : String) : Except ConfigError (String × Bool) :=
  let legacyDefault : Toml :=
    if !config.isEmpty && !defines config "security" then .bool true else .str "auto"
  let value := (settingValue env config "MACHINEDECK_COOKIE_SECURE" "security"
    "cookie_secure").getD legacyDefault
  match value with
  | .bool true => .ok ("secure", true)
  | .bool false => .ok ("insecure", false)
  | value =>
    let normalized := cookieAlias (lower (stripText (pyText env.toInterpreter value)))
    if normalized = "auto" then .ok (normalized, accessMode == "proxy")
    else if normalized = "secure" ∨ normalized = "insecure" then
      .ok (normalized, normalized == "secure")
    else
      .error (.runtimeError
        "security.cookie_secure must be auto, secure, insecure, true, or false")

/-! ### Origins and networks -/

/-- The items of a list; a variable has them between commas, another value is a list of one. -/
def listItems (setting section' name : String) (default : List String) : List Toml :=
  match env.getenv setting with
  | some value =>
    if value = "" then fromFile else (value.toList.splitOn ',').map fun v => .str (String.ofList v)
  | none => fromFile
where
  fromFile : List Toml :=
    match value? config section' name with
    | none => default.map .str
    | some (.arr items) => items
    | some value => [value]

/-- One value of `_trusted_origins`; none for an empty one. -/
def readOrigin (value : Toml) : Except ConfigError (Option String) :=
  let origin := trimOrigin (pyText env.toInterpreter value)
  if origin = "" then .ok none
  else
    match urlsplit env.tables origin.toList with
    | none => .error (.runtimeError "server.trusted_origins contains an invalid Origin")
    | some parsed =>
      if parsed.port = none then
        .error (.runtimeError "server.trusted_origins contains an invalid Origin")
      else if strays env.tables ["http", "https"] parsed || origin.toList.contains '*' then
        .error (.runtimeError "server.trusted_origins must contain exact HTTP or HTTPS Origins")
      else .ok (some origin)

def trustedOrigins : Except ConfigError (List String) :=
  (listItems env config "MACHINEDECK_TRUSTED_ORIGINS" "server" "trusted_origins"
    Access.localOrigins).foldlM (fun origins value => do
      match ← readOrigin env value with
      | none => return origins
      | some origin => return addNew origins origin) []

/-- One value of `_networks`. -/
def readNetwork (name : String) (value : Toml) : Except ConfigError CanonicalNetwork :=
  match ipNetwork (stripText (pyText env.toInterpreter value)) with
  | none => .error (.runtimeError s!"network.{name} must contain canonical IPv4 or IPv6 CIDRs")
  | some network =>
    if name = "trusted_proxies" ∧ 65536 < network.numAddresses then
      .error (.runtimeError
        "network.trusted_proxies entries cannot contain more than 65536 addresses")
    else .ok network

def networks (setting name : String) (default : List String) :
    Except ConfigError (List CanonicalNetwork) :=
  (listItems env config setting "network" name default).foldlM (fun networks value => do
    let network ← readNetwork env name value
    return addNew networks network) []

/-! ### Paths -/

/-- `Path(value)`, none for a value that is false. -/
def pathText (value : Toml) : Except ConfigError (Option String) :=
  if truthy env.toInterpreter value = false then .ok none
  else
    match value with
    | .str path => .ok (some path)
    | _ => .error .typeError

def paths (setting name : String) (default : List String) (expand : String → String) :
    Except ConfigError (List String) := do
  let found ← (values setting name default).mapM (pathText env)
  return (found.filterMap id).map expand
where
  values (setting name : String) (default : List String) : List Toml :=
    let fromFile : List Toml :=
      match value? config "paths" name with
      | none => default.map .str
      | some (.arr items) => items
      | some value => [value]
    match env.getenv setting with
    | some value =>
      if value = "" then fromFile
      else (value.toList.splitOn ':').map fun path => .str (String.ofList path)
    | none => fromFile

def userUnitDir : Except ConfigError String :=
  match (settingValue env config "MACHINEDECK_USER_UNIT_DIR" "paths" "user_unit_dir").getD
      (.str (env.home ++ "/.config/systemd/user")) with
  | .str value => .ok (env.expanduser value)
  | _ => .error .typeError

end Settings

/-! ### The settings -/

/-- The settings in which the file has a part. -/
structure Settings where
  databaseUrl : Toml
  allowedRoots : List String
  accessMode : String
  bindHost : String
  bindPort : ℤ
  userUnitDir : String
  publicHostLocal : Toml
  publicHostLan : Option Toml
  cookieSecurePolicy : String
  cookieSecure : Bool
  trustedOrigins : List String
  trustedProxies : List CanonicalNetwork
  trustedNetworks : List CanonicalNetwork
  monitorDisks : List String

def settingsOf (env : Surroundings) (config : Table) : Except ConfigError Settings := do
  let mode ← accessMode env config
  let (policy, secure) ← cookieSecurity env config mode
  let proxies ← networks env config "MACHINEDECK_TRUSTED_PROXIES" "trusted_proxies" []
  let trusted ←
    networks env config "MACHINEDECK_TRUSTED_NETWORKS" "trusted_networks" Access.defaultNetworks
  let roots ←
    paths env config "MACHINEDECK_ALLOWED_ROOTS" "allowed_roots" [env.projectParent] env.resolve
  let host ← bindHost env config mode
  let port ← bindPort env config
  let unitDir ← userUnitDir env config
  let origins ← trustedOrigins env config
  let disks ← paths env config "MACHINEDECK_MONITOR_DISKS" "monitor_disks"
    ["/", env.home, env.projectGrandparent] env.expanduser
  return {
    databaseUrl := (settingValue env config "MACHINEDECK_DATABASE_URL" "state" "database_url").getD
      (.str ("sqlite:///" ++ env.backendRoot ++ "/data/machinedeck.db"))
    allowedRoots := roots
    accessMode := mode
    bindHost := host
    bindPort := port
    userUnitDir := unitDir
    publicHostLocal := (settingValue env config "MACHINEDECK_PUBLIC_HOST_LOCAL" "server"
      "public_host_local").getD (.str "127.0.0.1")
    publicHostLan := settingValue env config "MACHINEDECK_PUBLIC_HOST_LAN" "server" "public_host_lan"
    cookieSecurePolicy := policy
    cookieSecure := secure
    trustedOrigins := origins
    trustedProxies := proxies
    trustedNetworks := trusted
    monitorDisks := firsts disks }

/-- Where the settings come from. -/
structure Loaded (env : Surroundings) (config : Table) (settings : Settings) : Prop where
  mode : accessMode env config = .ok settings.accessMode
  cookie : cookieSecurity env config settings.accessMode =
    .ok (settings.cookieSecurePolicy, settings.cookieSecure)
  proxies : networks env config "MACHINEDECK_TRUSTED_PROXIES" "trusted_proxies" [] =
    .ok settings.trustedProxies
  networks : networks env config "MACHINEDECK_TRUSTED_NETWORKS" "trusted_networks"
    Access.defaultNetworks = .ok settings.trustedNetworks
  host : bindHost env config settings.accessMode = .ok settings.bindHost
  port : bindPort env config = .ok settings.bindPort
  origins : trustedOrigins env config = .ok settings.trustedOrigins

theorem settingsOf_ok {env : Surroundings} {config : Table} {settings : Settings}
    (h : settingsOf env config = .ok settings) : Loaded env config settings := by
  obtain ⟨mode, hmode, h⟩ := bind_ok h
  obtain ⟨cookie, hcookie, h⟩ := bind_ok h
  obtain ⟨proxies, hproxies, h⟩ := bind_ok h
  obtain ⟨trusted, htrusted, h⟩ := bind_ok h
  obtain ⟨roots, -, h⟩ := bind_ok h
  obtain ⟨host, hhost, h⟩ := bind_ok h
  obtain ⟨port, hport, h⟩ := bind_ok h
  obtain ⟨unitDir, -, h⟩ := bind_ok h
  obtain ⟨origins, horigins, h⟩ := bind_ok h
  obtain ⟨disks, -, h⟩ := bind_ok h
  cases h
  exact ⟨hmode, hcookie, hproxies, htrusted, hhost, hport, horigins⟩

theorem settingsOf_isOk {env : Surroundings} {config : Table} {mode : String}
    (hmode : accessMode env config = .ok mode)
    (hcookie : ∃ cookie, cookieSecurity env config mode = .ok cookie)
    (hproxies : ∃ found, networks env config "MACHINEDECK_TRUSTED_PROXIES" "trusted_proxies" [] =
      .ok found)
    (hnetworks : ∃ found, networks env config "MACHINEDECK_TRUSTED_NETWORKS" "trusted_networks"
      Access.defaultNetworks = .ok found)
    (hroots : ∃ found, paths env config "MACHINEDECK_ALLOWED_ROOTS" "allowed_roots"
      [env.projectParent] env.resolve = .ok found)
    (hdisks : ∃ found, paths env config "MACHINEDECK_MONITOR_DISKS" "monitor_disks"
      ["/", env.home, env.projectGrandparent] env.expanduser = .ok found)
    (hhost : ∃ host, bindHost env config mode = .ok host)
    (hport : ∃ port, bindPort env config = .ok port)
    (hunit : ∃ path, userUnitDir env config = .ok path)
    (horigins : ∃ origins, trustedOrigins env config = .ok origins) :
    ∃ settings, settingsOf env config = .ok settings := by
  obtain ⟨cookie, hcookie⟩ := hcookie
  obtain ⟨proxies, hproxies⟩ := hproxies
  obtain ⟨found, hnetworks⟩ := hnetworks
  obtain ⟨host, hhost⟩ := hhost
  obtain ⟨port, hport⟩ := hport
  obtain ⟨unitDir, hunit⟩ := hunit
  obtain ⟨origins, horigins⟩ := horigins
  obtain ⟨roots, hroots⟩ := hroots
  obtain ⟨disks, hdisks⟩ := hdisks
  simp only [settingsOf, bind, Except.bind, hmode, hcookie, hproxies, hnetworks, hroots, hhost,
    hport, hunit, horigins, hdisks]
  exact ⟨_, rfl⟩

/-- The import, with the text of the file. -/
def loadSettings (env : Surroundings) (file : String) : Except ConfigError Settings :=
  match TomlText.loads file with
  | some config => settingsOf env config
  | none => .error .unreadable

end MachineDeck.Config

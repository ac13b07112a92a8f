import MachineDeck.AccessConfiguration

/-!
# The configuration file, as the deployment script reads it

`read_server_configuration` with the TOML reader of Python, and what `doctor` makes of the Cookie
policy in it.
-/

namespace MachineDeck.Access

open TomlText (Table Toml)

structure ConfigFile where
  path : String
  text : String
  /-- What the TOML reader says of a text that it refuses. -/
  complaint : String

/-- `data.get(name, {})`, where it is a table. -/
def tableOf (data : Table) (name : String) : Option Table :=
  match data.lookup name with
  | none => some []
  | some (.table entries) => some entries
  | some _ => none

/-- `entries.get(name, default)`, where it is a list. -/
def listOf (entries : Table) (name : String) (default : List Toml) : Option (List Toml) :=
  match entries.lookup name with
  | none => some default
  | some (.arr items) => some items
  | some _ => none

def stripSlashes (value : String) : String :=
  String.ofList (value.toList.rdropWhile (· = '/'))

def serverPort (interp : Interpreter) (server : Table) : Except InstallError ℤ :=
  match pyInt interp ((server.lookup "port").getD (.int 8080)) with
  | .ok port => .ok port
  | .error .overflowError => .error .overflowError
  | .error _ => .error (.deployError "server.port must be an integer")

/-- The values of the file, before they are checked. -/
def configurationOf (interp : Interpreter) (server security : Table)
    (origins proxies networks : List Toml) (port : ℤ) : ServerConfiguration :=
  let host := stripText (pyText interp ((server.lookup "host").getD (.str "127.0.0.1")))
  let inferredMode := if host ∈ ["0.0.0.0", "::"] then "lan" else "local"
  { mode := lower (stripText (pyText interp ((server.lookup "mode").getD (.str inferredMode))))
    host := host
    port := port
    cookieSecure := (security.lookup "cookie_secure").getD (.bool true)
    trustedOrigins := origins.map fun origin => stripSlashes (pyText interp origin)
    publicHostLan := server.lookup "public_host_lan"
    trustedProxies := proxies.map (pyText interp)
    trustedNetworks := networks.map (pyText interp) }

/-- What `read_server_configuration` makes of the tables of the file. -/
def serverConfiguration (interp : Interpreter) (data : Table) :
    Except InstallError ServerConfiguration :=
  match tableOf data "server", tableOf data "security", tableOf data "network" with
  | some server, some security, some network =>
    match listOf server "trusted_origins" [] with
    | none => .error (.deployError "server.trusted_origins must be a TOML array")
    | some origins =>
      match listOf network "trusted_proxies" [],
        listOf network "trusted_networks" (defaultNetworks.map .str) with
      | some proxies, some networks => do
        let port ← serverPort interp server
        let configuration := configurationOf interp server security origins proxies networks port
        validateServerConfiguration interp configuration
        return configuration
      | _, _ =>
        .error (.deployError
          "network.trusted_proxies and network.trusted_networks must be TOML arrays")
  | _, _, _ =>
    .error (.deployError
      "MachineDeck server, security, and network configuration must be TOML tables")

def readServerConfiguration (interp : Interpreter) (file : ConfigFile) :
    Except InstallError ServerConfiguration :=
  match TomlText.loads file.text with
  | some data => serverConfiguration interp data
  | none =>
    .error (.deployError s!"Cannot read MachineDeck configuration: {file.path}: {file.complaint}")

/-! ### The Cookie policy in `doctor` -/

def doctorPolicy (interp : Interpreter) (configuration : ServerConfiguration) : String :=
  match configuration.cookieSecure with
  | .bool true => "secure"
  | .bool false => "insecure"
  | value => lower (pyText interp value)

/-- The Secure flag that `doctor` reports. -/
def doctorSecure (interp : Interpreter) (configuration : ServerConfiguration) : Bool :=
  let policy := doctorPolicy interp configuration
  if policy = "auto" then configuration.mode == "proxy" else ["secure", "true"].contains policy

end MachineDeck.Access

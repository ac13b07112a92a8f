import MachineDeck.IpAddress
import MachineDeck.ManifestSchema
import MachineDeck.RegistryStore

/-!
# Ports

`backend/app/orchestration/ports.py` and the scan of `port_discovery.py` behind it.

* `ObservedPort`, `Connection`, `scanHostListeners` — the listeners of the host;
* `addressesConflict` — the test of two bind addresses;
* `ManagedRecord`, `managedObservations`, `systemPorts` — the listeners with their applications;
* `conflicts` — what a start would collide with.
-/

namespace MachineDeck.Ports

open IpAddress (ipAddress Address)
open MachineDeck.Lifecycle (PortConflict)

/-! ### Observed ports -/

inductive Transport where
  | tcp | udp
  deriving DecidableEq, Repr

def Transport.text : Transport → String
  | .tcp => "tcp"
  | .udp => "udp"

inductive PortSource where
  | process | compose | system
  deriving DecidableEq, Repr

structure ObservedPort where
  bindAddress : String
  hostPort : ℕ
  protocol : Transport
  pid : Option ℕ := none
  processName : Option String := none
  source : PortSource
  service : Option String := none
  containerId : Option String := none
  containerPort : Option ℕ := none
  applicationId : Option String := none
  deriving DecidableEq, Repr

def transportProtocol : PortProtocol → Transport
  | .http | .https | .tcp => .tcp
  | .udp => .udp

/-- `PortDefinition.validate_bind_address`. -/
def validateBindAddress (value : String) : Option String := (ipAddress value).map Address.str

def normalizeAddress (value : String) : String :=
  if value = "" ∨ value = "*" then "0.0.0.0"
  else
    match ipAddress value with
    | some address => address.str
    | none => value

def version : Address → ℕ
  | .v4 _ => 4
  | .v6 _ _ => 6

def addressesConflict (first second : String) : Bool :=
  match ipAddress first, ipAddress second with
  | some firstIp, some secondIp =>
    if firstIp = secondIp then true
    else if first = "::" ∨ second = "::" then true
    else if first = "0.0.0.0" ∧ version secondIp = 4 then true
    else if second = "0.0.0.0" ∧ version firstIp = 4 then true
    else false
  | _, _ => first == second

/-! ### The scan -/

/-- A socket as `psutil` has it; one that is not bound has no local address. -/
structure Connection where
  laddr : Option (String × ℕ)
  stream : Bool
  listening : Bool
  pid : Option ℕ
  deriving DecidableEq, Repr

/-- The ports of the sockets that are bound, and that listen where they are streams. -/
def scanHostListeners (processName : ℕ → Option String) (connections : List Connection) :
    List ObservedPort :=
  connections.filterMap fun connection =>
    match connection.laddr with
    | none => none
    | some (ip, port) =>
      if connection.stream = true ∧ connection.listening = false then none
      else some {
        bindAddress := normalizeAddress ip
        hostPort := port
        protocol := if connection.stream then .tcp else .udp
        pid := connection.pid
        processName := (connection.pid.filter (· ≠ 0)).bind processName
        source := .system }

/-! ### Listeners and their applications -/

/-- A record of the registry, with the ports that its discovery found, none where it failed. -/
structure ManagedRecord where
  id : String
  observed : Option (List ObservedPort)
  deriving DecidableEq, Repr

/-- The ports of one record, as its own. -/
def ManagedRecord.items (record : ManagedRecord) : List ObservedPort :=
  (record.observed.getD []).map fun item => { item with applicationId := some record.id }

def managedObservations (records : List ManagedRecord) : List ObservedPort :=
  records.flatMap ManagedRecord.items

/-- The test of `system_ports` for an observed port and a listener. -/
def attributable (listener item : ObservedPort) : Bool :=
  (listener.pid.isSome && item.pid.isSome && listener.pid == item.pid) ||
    (listener.protocol == item.protocol && listener.hostPort == item.hostPort &&
      addressesConflict listener.bindAddress item.bindAddress)

def attributed (managed : List ObservedPort) (listener : ObservedPort) : ObservedPort :=
  match managed.find? (attributable listener) with
  | some owner => { listener with applicationId := owner.applicationId }
  | none => listener

def systemPorts (records : List ManagedRecord) (listeners : List ObservedPort) :
    List ObservedPort :=
  listeners.map (attributed (managedObservations records))

/-! ### Conflicts -/

/-- The test of `conflicts` for a declared port and a listener. -/
def collides (manifest : ApplicationManifest) (declared : PortDefinition)
    (listener : ObservedPort) : Bool :=
  if listener.protocol ≠ transportProtocol declared.protocol ∨
      listener.hostPort ≠ declared.hostPort then false
  else if addressesConflict declared.bindAddress listener.bindAddress = false then false
  else if listener.applicationId = some manifest.id then false
  else true

def portConflict (declared : PortDefinition) (listener : ObservedPort) : PortConflict where
  protocol := (transportProtocol declared.protocol).text
  bindAddress := listener.bindAddress
  port := listener.hostPort
  pid := listener.pid
  processName := listener.processName
  applicationId := listener.applicationId
  managedByMachinedeck := listener.applicationId.isSome

def conflicts (manifest : ApplicationManifest) (listeners : List ObservedPort) :
    List PortConflict :=
  manifest.ports.flatMap fun declared =>
    (listeners.filter (collides manifest declared)).map (portConflict declared)

end MachineDeck.Ports

import MachineDeck.IpNetwork
import MachineDeck.LifecycleRecords
import MachineDeck.PortConflicts
import MachineDeck.UrlQuery

/-!
# The views of an application's ports

`PortService.ports`: the declared ports of a manifest beside the ports that were observed.

* `publicHost`, `endpointUrl` — the address under which a browser opens a port;
* `matchDeclared` — each declaration takes the first observation of its socket from the rest;
* `declaredView`, `undeclaredView`, `ports` — the views;
* `ports_partition` — the declarations in their order, then what no declaration took; the status
  of a declaration is decided by its own socket alone.
-/

namespace MachineDeck.Ports

open IpAddress (ipAddress Address)
open Lifecycle (ManifestYaml PortConflict Registry)
open UrlSplit (CaseTables)

/-! ### Endpoint URLs -/

def asciiAlnum (c : Char) : Bool := c.isAlpha || c.isDigit

/-- A label of a host name: letters, digits and hyphens, no hyphen at either end. -/
def hostLabel (label : List Char) : Bool :=
  1 ≤ label.length && label.length ≤ 63 && label.all (fun c => asciiAlnum c || c == '-') &&
    label.head?.any asciiAlnum && label.getLast?.any asciiAlnum

/-- `_public_host`. -/
def publicHost (value : Option String) : Option String :=
  match value with
  | none => none
  | some value =>
    if value.toList.any "/\\@#?\r\n".toList.contains then none
    else
      match ipAddress value with
      | some address => some (if version address = 6 then "[" ++ address.str ++ "]" else address.str)
      | none =>
        if 1 ≤ value.length ∧ value.length ≤ 253 ∧
            (value.toList.splitOn '.').all hostLabel = true then
          some (String.ofList (value.toList.map Char.toLower))
        else none

/-- `quote(text, safe)`. -/
def quoteChar (safe : List Char) (c : Char) : List Char :=
  if UrlQuery.unreserved c || safe.contains c then [c]
  else (String.utf8EncodeChar c).flatMap fun b =>
    ['%', UrlQuery.hexUpper (b.toNat / 16), UrlQuery.hexUpper (b.toNat % 16)]

def protocolText : PortProtocol → String
  | .http => "http"
  | .https => "https"
  | .tcp => "tcp"
  | .udp => "udp"

/-- The hosts that the settings publish. -/
structure PublicHosts where
  local_ : String
  lan : Option String

/-- The path was split when the manifest was accepted. -/
def endpointUrl (tables : CaseTables) (hosts : PublicHosts) (port : PortDefinition)
    (scope : String) : Option String := do
  if port.protocol.isWeb = false ∨ port.openInBrowser = false then none
  let address ← ipAddress port.bindAddress
  let host ←
    if address.isUnspecified || address.isLoopback then
      publicHost (if scope = "local" then some hosts.local_ else hosts.lan)
    else publicHost (some address.str)
  let given := port.path.getD ""
  let parsed ← UrlSplit.urlsplit tables (if given = "" then "/" else given).toList
  let path := if parsed.path = [] then ['/'] else parsed.path
  return String.ofList (UrlQuery.urlunsplit {
    scheme := (protocolText port.protocol).toList
    netloc := s!"{host}:{port.hostPort}".toList
    path := path.flatMap (quoteChar "/%:@-._~!$&'()*+,;=".toList)
    query := UrlQuery.urlencode (UrlQuery.parseQsl parsed.query)
    fragment := [] })

/-! ### Views -/

inductive PortStatus where
  | declared | listening | notListening | undeclared | conflicted | unknown
  deriving DecidableEq, Repr

structure PortView where
  id : String
  name : String
  protocol : PortProtocol
  declared : Option PortDefinition
  observed : Option ObservedPort
  status : PortStatus
  url : Option String := none
  deriving DecidableEq

structure PortsResponse where
  applicationId : String
  ports : List PortView
  deriving DecidableEq

/-- The test of `ports` for a declared port and an observed one. -/
def observes (declared : PortDefinition) (item : ObservedPort) : Bool :=
  item.protocol == transportProtocol declared.protocol && item.hostPort == declared.hostPort &&
    item.bindAddress == declared.bindAddress

/-- Each declaration with the observation it takes, and the observations that are left. -/
def matchDeclared : List PortDefinition → List ObservedPort →
    List (PortDefinition × Option ObservedPort) × List ObservedPort
  | [], remaining => ([], remaining)
  | declared :: ports, remaining =>
    match remaining.find? (observes declared) with
    | some item =>
      let (matched, rest) := matchDeclared ports (remaining.erase item)
      ((declared, some item) :: matched, rest)
    | none =>
      let (matched, rest) := matchDeclared ports remaining
      ((declared, none) :: matched, rest)

/-- What is known when the views are made; `none` stands for a `PortDiscoveryError`. -/
structure PortReadings where
  observed : Option (List ObservedPort)
  conflicts : Option (List PortConflict)
  state : ApplicationStatus

def declaredStatus (readings : PortReadings) (declared : PortDefinition)
    (found : Option ObservedPort) : PortStatus :=
  if found.isSome then .listening
  else if (readings.conflicts.getD []).any fun conflict =>
      conflict.protocol == (transportProtocol declared.protocol).text &&
        conflict.port == declared.hostPort then .conflicted
  else if readings.observed = none ∨ readings.conflicts = none then .unknown
  else if readings.state = .running ∨ readings.state = .unhealthy then .notListening
  else .declared

def declaredView (tables : CaseTables) (hosts : PublicHosts) (readings : PortReadings)
    (scope : String) (declared : PortDefinition) (found : Option ObservedPort) : PortView where
  id := declared.id
  name := declared.name
  protocol := declared.protocol
  declared := some declared
  observed := found
  status := declaredStatus readings declared found
  url := endpointUrl tables hosts declared scope

def Transport.protocol : Transport → PortProtocol
  | .tcp => .tcp
  | .udp => .udp

def undeclaredView (item : ObservedPort) : PortView where
  id := s!"observed-{item.protocol.text}-{item.hostPort}"
  name := s!"Observed {item.protocol.text.toUpper} {item.hostPort}"
  protocol := item.protocol.protocol
  declared := none
  observed := some item
  status := .undeclared

/-! ### The service -/

structure PortServiceError where
  code : String
  message : String
  deriving DecidableEq, Repr

/-- What leaves `ports` as an exception. -/
inductive PortsError where
  | service (error : PortServiceError)
  | unreadableManifest
  deriving DecidableEq, Repr

structure PortService where
  yaml : ManifestYaml
  host : HostPaths
  tables : CaseTables
  hosts : PublicHosts

/-- What the discovery of the application's own ports and the scan of the host answer, the
listeners with their applications; `none` stands for a `PortDiscoveryError`. -/
structure Discoveries where
  observed : Option (List ObservedPort)
  listeners : Option (List ObservedPort)

/-- `_manifest`. -/
def PortService.manifest (service : PortService) (db : Registry) (applicationId : String) :
    Except PortsError ApplicationManifest :=
  match db.applications.lookup applicationId with
  | none => .error (.service ⟨"APP_NOT_FOUND", s!"Application not found: {applicationId}"⟩)
  | some record =>
    match service.yaml.load record.configYaml with
    | none => .error .unreadableManifest
    | some manifest =>
      let validation := validateManifestPaths service.host manifest
      if validation.valid then .ok manifest
      else
        let messages := "; ".intercalate (validation.errors.map ValidationIssue.message)
        .error (.service ⟨"CONFIG_INVALID", messages⟩)

/-- `_status`. -/
def status (db : Registry) (applicationId : String) : ApplicationStatus :=
  match db.instances.lookup applicationId with
  | some state => state.status
  | none => .unknown

/-- `conflicts`, which scans the host only where a port is declared. -/
def conflictScan (manifest : ApplicationManifest) (listeners : Option (List ObservedPort)) :
    Option (List PortConflict) :=
  if manifest.ports.isEmpty then some [] else listeners.map (conflicts manifest)

def PortService.ports (service : PortService) (db : Registry) (discoveries : Discoveries)
    (applicationId : String) (scope : String := "local") : Except PortsError PortsResponse := do
  let manifest ← service.manifest db applicationId
  let readings : PortReadings := {
    observed := discoveries.observed
    conflicts := conflictScan manifest discoveries.listeners
    state := status db applicationId }
  let (matched, remaining) := matchDeclared manifest.ports (discoveries.observed.getD [])
  let views := matched.map fun (declared, found) =>
    declaredView service.tables service.hosts readings scope declared found
  return { applicationId, ports := views ++ remaining.map undeclaredView }

/-! ### Matching -/

theorem observes_iff {declared : PortDefinition} {item : ObservedPort} :
    observes declared item = true ↔
      item.protocol = transportProtocol declared.protocol ∧
        item.hostPort = declared.hostPort ∧ item.bindAddress = declared.bindAddress := by
  simp [observes, and_assoc]

theorem matchDeclared_some {declared : PortDefinition} {ports : List PortDefinition}
    {remaining : List ObservedPort} {item : ObservedPort}
    (hfind : remaining.find? (observes declared) = some item) :
    matchDeclared (declared :: ports) remaining =
      ((declared, some item) :: (matchDeclared ports (remaining.erase item)).1,
        (matchDeclared ports (remaining.erase item)).2) := by
  rw [matchDeclared, hfind]

theorem matchDeclared_none {declared : PortDefinition} {ports : List PortDefinition}
    {remaining : List ObservedPort} (hfind : remaining.find? (observes declared) = none) :
    matchDeclared (declared :: ports) remaining =
      ((declared, none) :: (matchDeclared ports remaining).1,
        (matchDeclared ports remaining).2) := by
  rw [matchDeclared, hfind]

theorem matchDeclared_declared (ports : List PortDefinition) (remaining : List ObservedPort) :
    (matchDeclared ports remaining).1.map Prod.fst = ports := by
  induction ports generalizing remaining with
  | nil => rfl
  | cons declared ports ih =>
      cases hfind : remaining.find? (observes declared) with
      | some item =>
          rw [matchDeclared_some hfind, List.map_cons, ih]
      | none =>
          rw [matchDeclared_none hfind, List.map_cons, ih]

/-- No observation is lost, and none is taken twice. -/
theorem matchDeclared_perm (ports : List PortDefinition) (remaining : List ObservedPort) :
    ((matchDeclared ports remaining).1.filterMap Prod.snd ++
      (matchDeclared ports remaining).2).Perm remaining := by
  induction ports generalizing remaining with
  | nil => exact .refl remaining
  | cons declared ports ih =>
      cases hfind : remaining.find? (observes declared) with
      | some item =>
          have hitem := List.perm_cons_erase (List.mem_of_find?_eq_some hfind)
          rw [matchDeclared_some hfind]
          exact ((ih (remaining.erase item)).cons item).trans hitem.symm
      | none =>
          rw [matchDeclared_none hfind]
          exact ih remaining

/-- What a declaration takes is of its own socket. -/
theorem observes_of_matched {ports : List PortDefinition} {remaining : List ObservedPort}
    {declared : PortDefinition} {item : ObservedPort}
    (h : (declared, some item) ∈ (matchDeclared ports remaining).1) :
    observes declared item = true := by
  induction ports generalizing remaining with
  | nil => exact absurd h List.not_mem_nil
  | cons first ports ih =>
      cases hfind : remaining.find? (observes first) with
      | some found =>
          rw [matchDeclared_some hfind, List.mem_cons] at h
          cases h with
          | inl hhead =>
              obtain ⟨rfl, hitem⟩ := Prod.mk.inj hhead
              rw [Option.some.inj hitem]
              exact List.find?_some hfind
          | inr htail => exact ih htail
      | none =>
          rw [matchDeclared_none hfind, List.mem_cons] at h
          cases h with
          | inl hhead => exact absurd (Prod.mk.inj hhead).2 (Option.some_ne_none item)
          | inr htail => exact ih htail

/-- An observation of one host port is not in the way of a declaration of another. -/
theorem exists_erase_iff {declared : PortDefinition} {item : ObservedPort}
    (hport : item.hostPort ≠ declared.hostPort) (remaining : List ObservedPort) :
    (∃ other ∈ remaining.erase item, observes declared other = true) ↔
      ∃ other ∈ remaining, observes declared other = true := by
  constructor
  · intro ⟨other, hother, hobserves⟩
    exact ⟨other, List.mem_of_mem_erase hother, hobserves⟩
  · intro ⟨other, hother, hobserves⟩
    have hne : other ≠ item := by
      intro hsame
      rw [hsame] at hobserves
      exact hport (observes_iff.mp hobserves).2.1
    exact ⟨other, (List.mem_erase_of_ne hne).mpr hother, hobserves⟩

/-- A declaration takes an observation whenever there is one, since no other declaration of the
manifest has its host port. -/
theorem matched_isSome_iff {ports : List PortDefinition}
    (hunique : (ports.map PortDefinition.hostPort).Nodup) {remaining : List ObservedPort}
    {declared : PortDefinition} {found : Option ObservedPort}
    (h : (declared, found) ∈ (matchDeclared ports remaining).1) :
    found.isSome = true ↔ ∃ item ∈ remaining, observes declared item = true := by
  induction ports generalizing remaining with
  | nil => exact absurd h List.not_mem_nil
  | cons first ports ih =>
      rw [List.map_cons, List.nodup_cons] at hunique
      obtain ⟨hfirst, hports⟩ := hunique
      cases hfind : remaining.find? (observes first) with
      | some item =>
          have hitem := List.find?_some hfind
          rw [matchDeclared_some hfind, List.mem_cons] at h
          cases h with
          | inl hhead =>
              obtain ⟨rfl, rfl⟩ := Prod.mk.inj hhead
              exact iff_of_true rfl ⟨item, List.mem_of_find?_eq_some hfind, hitem⟩
          | inr htail =>
              have hdeclared : declared ∈ ports := by
                rw [← matchDeclared_declared ports (remaining.erase item)]
                exact List.mem_map_of_mem htail
              have hport : item.hostPort ≠ declared.hostPort := by
                intro hsame
                rw [(observes_iff.mp hitem).2.1] at hsame
                exact hfirst (hsame ▸ List.mem_map_of_mem hdeclared)
              rw [ih hports htail, exists_erase_iff hport]
      | none =>
          rw [matchDeclared_none hfind, List.mem_cons] at h
          cases h with
          | inl hhead =>
              obtain ⟨rfl, rfl⟩ := Prod.mk.inj hhead
              refine iff_of_false Bool.false_ne_true ?_
              intro ⟨item, hitem, hobserves⟩
              exact List.find?_eq_none.mp hfind item hitem hobserves
          | inr htail => exact ih hports htail

/-! ### Conflicts -/

/-- The scan reports a conflict for this very declaration. -/
def Reported (manifest : ApplicationManifest) (listeners : List ObservedPort)
    (declared : PortDefinition) : Prop :=
  ∃ listener ∈ listeners, collides manifest declared listener = true

theorem collides_port {manifest : ApplicationManifest} {declared : PortDefinition}
    {listener : ObservedPort} (h : collides manifest declared listener = true) :
    listener.protocol = transportProtocol declared.protocol ∧
      listener.hostPort = declared.hostPort := by
  unfold collides at h
  split_ifs at h with hother
  push Not at hother
  exact hother

/-- The port of a conflict leads back to the declaration it was reported for. -/
theorem conflict_any_iff {manifest : ApplicationManifest} {declared : PortDefinition}
    (hdeclared : declared ∈ manifest.ports) (listeners : List ObservedPort) :
    ((conflicts manifest listeners).any fun conflict =>
        conflict.protocol == (transportProtocol declared.protocol).text &&
          conflict.port == declared.hostPort) = true ↔
      Reported manifest listeners declared := by
  rw [List.any_eq_true]
  constructor
  · intro ⟨conflict, hconflict, hjoined⟩
    obtain ⟨other, hother, hconflict⟩ := List.mem_flatMap.mp hconflict
    obtain ⟨listener, hlistener, rfl⟩ := List.mem_map.mp hconflict
    obtain ⟨hlistener, hcollides⟩ := List.mem_filter.mp hlistener
    rw [Bool.and_eq_true, beq_iff_eq, beq_iff_eq] at hjoined
    have hport : other.hostPort = declared.hostPort :=
      (collides_port hcollides).2.symm.trans hjoined.2
    have hsame : other = declared :=
      List.inj_on_of_nodup_map manifest.uniqueHostPorts hother hdeclared hport
    exact ⟨listener, hlistener, hsame ▸ hcollides⟩
  · intro ⟨listener, hlistener, hcollides⟩
    have hconflict : portConflict declared listener ∈ conflicts manifest listeners :=
      List.mem_flatMap.mpr ⟨declared, hdeclared,
        List.mem_map_of_mem (List.mem_filter.mpr ⟨hlistener, hcollides⟩)⟩
    refine ⟨portConflict declared listener, hconflict, ?_⟩
    rw [Bool.and_eq_true, beq_iff_eq, beq_iff_eq]
    exact ⟨rfl, (collides_port hcollides).2⟩

/-- Without a declaration there is nothing to scan for, and nothing to report. -/
theorem conflictScan_getD (manifest : ApplicationManifest)
    (listeners : Option (List ObservedPort)) :
    (conflictScan manifest listeners).getD [] = conflicts manifest (listeners.getD []) := by
  unfold conflictScan
  split_ifs with hnone
  · rw [conflicts, List.isEmpty_iff.mp hnone]
    rfl
  · cases listeners with
    | some listeners => rfl
    | none => exact (List.flatMap_eq_nil_iff.mpr fun declared _ => rfl).symm

/-! ### Statuses -/

theorem declaredStatus_listening (readings : PortReadings) (declared : PortDefinition)
    (found : Option ObservedPort) :
    declaredStatus readings declared found = .listening ↔ found.isSome = true := by
  unfold declaredStatus
  split_ifs with hfound <;> simp [hfound]

theorem declaredStatus_conflicted (readings : PortReadings) (declared : PortDefinition)
    (found : Option ObservedPort) :
    declaredStatus readings declared found = .conflicted ↔
      ¬ found.isSome = true ∧ ((readings.conflicts.getD []).any fun conflict =>
        conflict.protocol == (transportProtocol declared.protocol).text &&
          conflict.port == declared.hostPort) = true := by
  unfold declaredStatus
  split_ifs with hfound hconflict <;> simp [*]

theorem declaredStatus_ne_undeclared (readings : PortReadings) (declared : PortDefinition)
    (found : Option ObservedPort) : declaredStatus readings declared found ≠ .undeclared := by
  unfold declaredStatus
  split_ifs <;> decide

/-! ### The response -/

/-- What `ports` answers for a declaration: its status is decided by what was observed on its own
socket and by what the scan reported for it. -/
structure Answers (manifest : ApplicationManifest) (observed listeners : List ObservedPort)
    (declared : PortDefinition) (view : PortView) : Prop where
  shows_declared : view.declared = some declared
  takes_own : ∀ item, view.observed = some item → item ∈ observed ∧ observes declared item = true
  listening : view.status = .listening ↔
    ∃ item ∈ observed, item.protocol = transportProtocol declared.protocol ∧
      item.hostPort = declared.hostPort ∧ item.bindAddress = declared.bindAddress
  conflicted : view.status = .conflicted ↔
    view.status ≠ .listening ∧ Reported manifest listeners declared
  ne_undeclared : view.status ≠ .undeclared

theorem declaredView_answers {tables : CaseTables} {hosts : PublicHosts} {scope : String}
    {manifest : ApplicationManifest} {observed : List ObservedPort}
    {listeners : Option (List ObservedPort)} {readings : PortReadings}
    (hconflicts : readings.conflicts = conflictScan manifest listeners)
    {declared : PortDefinition} {found : Option ObservedPort}
    (h : (declared, found) ∈ (matchDeclared manifest.ports observed).1) :
    Answers manifest observed (listeners.getD []) declared
      (declaredView tables hosts readings scope declared found) := by
  have hdeclared : declared ∈ manifest.ports := by
    rw [← matchDeclared_declared manifest.ports observed]
    exact List.mem_map_of_mem h
  have hlistening := declaredStatus_listening readings declared found
  constructor
  · rfl
  · intro item hitem
    have hfound : found = some item := hitem
    rw [hfound] at h
    have htaken : item ∈ (matchDeclared manifest.ports observed).1.filterMap Prod.snd :=
      List.mem_filterMap.mpr ⟨_, h, rfl⟩
    exact ⟨(matchDeclared_perm manifest.ports observed).subset (List.mem_append_left _ htaken),
      observes_of_matched h⟩
  · show declaredStatus readings declared found = .listening ↔ _
    rw [hlistening, matched_isSome_iff manifest.uniqueHostPorts h]
    simp only [observes_iff]
  · show declaredStatus readings declared found = .conflicted ↔
      declaredStatus readings declared found ≠ .listening ∧ _
    rw [declaredStatus_conflicted, hconflicts, conflictScan_getD, conflict_any_iff hdeclared,
      Ne, hlistening]
  · exact declaredStatus_ne_undeclared readings declared found

/-- The response has a view for each declaration, in the manifest's order, and behind these an
undeclared view for each observation that no declaration took; together the views carry each
observation as often as it was made. -/
theorem ports_partition {service : PortService} {db : Registry} {applicationId : String}
    {manifest : ApplicationManifest} (hmanifest : service.manifest db applicationId = .ok manifest)
    (discoveries : Discoveries) (scope : String) :
    ∃ (front : List PortView) (rest : List ObservedPort),
      service.ports db discoveries applicationId scope =
        .ok ⟨applicationId, front ++ rest.map undeclaredView⟩ ∧
      List.Forall₂ (Answers manifest (discoveries.observed.getD [])
        (discoveries.listeners.getD [])) manifest.ports front ∧
      ((front ++ rest.map undeclaredView).filterMap PortView.observed).Perm
        (discoveries.observed.getD []) := by
  let readings : PortReadings := {
    observed := discoveries.observed
    conflicts := conflictScan manifest discoveries.listeners
    state := status db applicationId }
  let view (pair : PortDefinition × Option ObservedPort) : PortView :=
    declaredView service.tables service.hosts readings scope pair.1 pair.2
  let matched := matchDeclared manifest.ports (discoveries.observed.getD [])
  refine ⟨matched.1.map view, matched.2, ?_, ?_, ?_⟩
  · rw [PortService.ports, hmanifest]
    rfl
  · have hviews : List.Forall₂ (Answers manifest (discoveries.observed.getD [])
        (discoveries.listeners.getD [])) (matched.1.map Prod.fst) (matched.1.map view) := by
      rw [List.forall₂_map_left_iff, List.forall₂_map_right_iff, List.forall₂_same]
      intro pair hpair
      exact declaredView_answers rfl hpair
    rwa [matchDeclared_declared] at hviews
  · rw [List.filterMap_append, List.filterMap_map, List.filterMap_map]
    have hfront : PortView.observed ∘ view = Prod.snd := rfl
    have hrest : PortView.observed ∘ undeclaredView = some := rfl
    rw [hfront, hrest, List.filterMap_some]
    exact matchDeclared_perm manifest.ports (discoveries.observed.getD [])

/-! ### The ports of `ollama` -/

def ollamaPorts : PortService where
  yaml := Lifecycle.ollamaYaml
  host := ollamaHost
  tables := ⟨id, id⟩
  hosts := ⟨"127.0.0.1", none⟩

/-- An observation on another address than the declared one. -/
def observedElsewhere : ObservedPort :=
  { bindAddress := "192.168.1.50", hostPort := 11434, protocol := .tcp, source := .process }

set_option maxRecDepth 4000 in
theorem manifest_ollama : ollamaPorts.manifest Lifecycle.registered "ollama" = .ok ollama := by
  rfl

theorem ports_partition_ollama :
    ∃ (front : List PortView) (rest : List ObservedPort),
      ollamaPorts.ports Lifecycle.registered ⟨some [observedElsewhere], none⟩ "ollama" "local" =
        .ok ⟨"ollama", front ++ rest.map undeclaredView⟩ ∧
      List.Forall₂ (Answers ollama [observedElsewhere] []) ollama.ports front ∧
      ((front ++ rest.map undeclaredView).filterMap PortView.observed).Perm [observedElsewhere] :=
  ports_partition manifest_ollama ⟨some [observedElsewhere], none⟩ "local"

end MachineDeck.Ports

import MachineDeck.ComposeStatus
import MachineDeck.JsonDump
import MachineDeck.PortService

/-!
# The ports of a Docker Compose project

`ComposePortDiscovery._observed_from_containers`: what `docker inspect` says of containers, and the
ports that are observed in it.

* `observedBinding`, `observedEntry`, `observedContainer`, `observedFromContainers` — the loops,
  with the exceptions they raise;
* `ComposeContainer`, `publishedPorts` — a container as Docker describes it, and its ports;
* `observed_published` — what is observed are the published ports, one by one.
-/

namespace MachineDeck.Ports

open JsonText (Json member?)
open JsonDump (dictOf)
open PythonNumber (pythonInt)
open Logs (ComposePlatform PyError asObject messageText trueMember? truthy)

/-! ### The loops -/

/-- Besides: `str.isdigit` of one character, and `Path(text).resolve()`. -/
structure DiscoveryPlatform extends ComposePlatform where
  digitChar : Char → Bool
  resolve : String → Except PyError AbsolutePath

section

variable (platform : DiscoveryPlatform)

def isDigit (text : String) : Bool :=
  !text.toList.isEmpty && text.toList.all platform.digitChar

/-- `members.get(name, {})`, on which `get` is called. -/
def getObject (members : List (String × Json)) (name : String) :
    Except PyError (List (String × Json)) :=
  match member? members name with
  | some value => asObject value
  | none => .ok []

/-- `members.get(name, {}) or {}`. -/
def getDict (members : List (String × Json)) (name : String) :
    Except PyError (List (String × Json)) :=
  match trueMember? platform.toComposePlatform members name with
  | some value => asObject value
  | none => .ok []

def labelsOf (attributes : List (String × Json)) : Except PyError (List (String × Json)) := do
  getDict platform (← getObject attributes "Config") "Labels"

def portsOf (attributes : List (String × Json)) : Except PyError (List (String × Json)) := do
  getDict platform (← getObject attributes "NetworkSettings") "Ports"

def expectedProject (runtime : ComposeRuntime) : String :=
  match runtime.projectName.filter (· ≠ "") with
  | some name => name
  | none => runtime.workingDir.parts.getLastD ""

def inProject (runtime : ComposeRuntime) (labels : List (String × Json)) : Bool :=
  match member? labels "com.docker.compose.project" with
  | some (.str project) => project = expectedProject runtime
  | _ => false

/-- Without a label, or with an empty one, the directory is not compared. -/
def inWorkingDir (runtime : ComposeRuntime) (labels : List (String × Json)) :
    Except PyError Bool :=
  match trueMember? platform.toComposePlatform labels "com.docker.compose.project.working_dir" with
  | none => .ok true
  | some (.str registeredDir) => do
    let path ← platform.resolve registeredDir
    return decide (path = runtime.workingDir)
  | some _ => .error .typeError

/-- `ipaddress.ip_address` of an integer. -/
def integerAddress (value : ℤ) : Except PyError String :=
  if h : 0 ≤ value ∧ value.toNat < 2 ^ 32 then
    .ok (IpAddress.Address.v4 ⟨value.toNat, h.2⟩).str
  else if h : 0 ≤ value ∧ value.toNat < 2 ^ 128 then
    .ok (IpAddress.Address.v6 ⟨value.toNat, h.2⟩ none).str
  else .error .valueError

/-- `_normalize_address(binding.get("HostIp", ""))`, as an `ObservedPort` takes it. -/
def bindAddress : Option Json → Except PyError String
  | none => .ok (normalizeAddress "")
  | some (.str text) => .ok (normalizeAddress text)
  | some (.int value) => integerAddress value
  | some (.bool value) => integerAddress (if value then 1 else 0)
  | some (.arr _) | some (.obj _) => .error .typeError
  | some .null | some (.decimal _) => .error .valueError

/-- `Field(ge=1, le=65535)`. -/
def validHostPort (port : ℤ) : Except PyError ℕ :=
  if 1 ≤ port ∧ port ≤ 65535 then .ok port.toNat else .error .valueError

def intOf (text : String) : Except PyError ℤ :=
  (pythonInt platform.decimalDigit (.str text)).mapError PyError.ofInt

/-- `for binding in host_bindings`, of a value that is true; only of a list the items have `get`. -/
def bindingItems : Json → Except PyError (List Json)
  | .arr items => .ok items
  | .obj _ | .str _ => .error .attributeError
  | _ => .error .typeError

def transport? (protocol : String) : Option Transport :=
  if protocol = "tcp" then some .tcp else if protocol = "udp" then some .udp else none

def observedBinding (manifest : ApplicationManifest) (containerId : String)
    (labels : List (String × Json)) (protocol : Transport) (containerPort : String)
    (binding : Json) : Except PyError (Option ObservedPort) := do
  let members ← asObject binding
  let hostPort := messageText platform.toPlatform (member? members "HostPort")
  if !isDigit platform hostPort then return none
  let address ← bindAddress (member? members "HostIp")
  let port ← validHostPort (← intOf platform hostPort)
  let service ← Logs.cursorText (member? labels "com.docker.compose.service")
  let number ← intOf platform containerPort
  return some {
    bindAddress := address
    hostPort := port
    protocol := protocol
    source := .compose
    service := service
    containerId := some (String.ofList (containerId.toList.take 12))
    containerPort := some number.toNat
    applicationId := some manifest.id }

/-- The body of the loop over `ports.items()`. -/
def observedEntry (manifest : ApplicationManifest) (containerId : String)
    (labels : List (String × Json)) (entry : String × Json) : Except PyError (List ObservedPort) :=
  if truthy platform.toComposePlatform entry.2 = false then .ok []
  else
    let (containerPort, protocol) := LineText.partition entry.1 '/'
    match transport? (protocol.getD "") with
    | none => .ok []
    | some transport =>
      if isDigit platform containerPort = false then .ok []
      else do
        let bindings ← bindingItems entry.2
        let observed ← bindings.mapM
          (observedBinding platform manifest containerId labels transport containerPort)
        return observed.filterMap id

/-- The body of the loop over the containers. -/
def observedContainer (manifest : ApplicationManifest) (runtime : ComposeRuntime)
    (container : String × List (String × Json)) : Except PyError (List ObservedPort) := do
  let labels ← labelsOf platform container.2
  if inProject runtime labels = false then return []
  if !(← inWorkingDir platform runtime labels) then return []
  let ports ← portsOf platform container.2
  let observed ← (dictOf ports).mapM (observedEntry platform manifest container.1 labels)
  return observed.flatten

def observedFromContainers (manifest : ApplicationManifest) (runtime : ComposeRuntime)
    (containers : List (String × List (String × Json))) : Except PyError (List ObservedPort) := do
  let observed ← containers.mapM (observedContainer platform manifest runtime)
  return observed.flatten

end

/-! ### Containers as Docker describes them -/

/-- A number as Docker writes it. -/
structure PortText (text : String) : Prop where
  ne_empty : text ≠ ""
  digits : ∀ c ∈ text.toList, c.isDigit = true
  short : text.toList.length ≤ JsonText.intMaxStrDigits

def portNumber (text : String) : ℕ := JsonText.digitsValue text.toList

/-- One item of `NetworkSettings.Ports`. -/
structure HostBinding where
  ip : String
  port : String
  members : List (String × Json)
  ip_eq : member? members "HostIp" = some (.str ip)
  port_eq : member? members "HostPort" = some (.str port)
  text : PortText port
  valid : 1 ≤ portNumber port ∧ portNumber port ≤ 65535

/-- A port that a container exposes; one that is not published has no bindings. -/
structure ExposedPort where
  number : String
  protocol : String
  bindings : List HostBinding
  value : Json
  text : PortText number
  value_eq : value = .arr (bindings.map fun binding => .obj binding.members) ∨
    bindings = [] ∧ value = .null

def ExposedPort.key (port : ExposedPort) : String := port.number ++ "/" ++ port.protocol

structure ComposeContainer where
  id : String
  project : Option String
  workingDir : Option String
  service : Option String
  ports : List ExposedPort
  labels : List (String × Json)
  config : List (String × Json)
  settings : List (String × Json)
  members : List (String × Json)
  id_eq : member? members "Id" = some (.str id)
  config_eq : member? members "Config" = some (.obj config)
  labels_eq : member? config "Labels" = some (.obj labels)
  project_eq : member? labels "com.docker.compose.project" = project.map .str
  workingDir_eq : member? labels "com.docker.compose.project.working_dir" = workingDir.map .str
  service_eq : member? labels "com.docker.compose.service" = service.map .str
  settings_eq : member? members "NetworkSettings" = some (.obj settings)
  ports_eq : member? settings "Ports" = some (.obj (ports.map fun port => (port.key, port.value)))
  keys : (ports.map ExposedPort.key).Nodup

/-- The container belongs to the project of the application. -/
def ComposeContainer.belongs (platform : DiscoveryPlatform) (runtime : ComposeRuntime)
    (container : ComposeContainer) : Bool :=
  container.project == some (expectedProject runtime) &&
    match container.workingDir.filter (· ≠ "") with
    | none => true
    | some dir =>
      match platform.resolve dir with
      | .ok path => path = runtime.workingDir
      | .error _ => false

def HostBinding.observed (manifest : ApplicationManifest) (container : ComposeContainer)
    (port : ExposedPort) (transport : Transport) (binding : HostBinding) : ObservedPort where
  bindAddress := normalizeAddress binding.ip
  hostPort := portNumber binding.port
  protocol := transport
  source := .compose
  service := container.service
  containerId := some (String.ofList (container.id.toList.take 12))
  containerPort := some (portNumber port.number)
  applicationId := some manifest.id

/-- The ports of the host behind an exposed port. -/
def ExposedPort.published (manifest : ApplicationManifest) (container : ComposeContainer)
    (port : ExposedPort) : List ObservedPort :=
  match transport? port.protocol with
  | none => []
  | some transport => port.bindings.map (·.observed manifest container port transport)

/-- What the project publishes on the host. -/
def publishedPorts (platform : DiscoveryPlatform) (manifest : ApplicationManifest)
    (runtime : ComposeRuntime) (containers : List ComposeContainer) : List ObservedPort :=
  (containers.filter (·.belongs platform runtime)).flatMap fun container =>
    container.ports.flatMap (·.published manifest container)

/-! ### What is observed of them -/

/-- Plain digits are digits, with their values. -/
def DiscoveryPlatform.ReadsDigits (platform : DiscoveryPlatform) : Prop :=
  ∀ c : Char, c.isDigit = true →
    platform.digitChar c = true ∧ platform.decimalDigit c = some (c.toNat - 48)

/-- The directory of the container can be resolved. -/
def ComposeContainer.Resolves (platform : DiscoveryPlatform) (container : ComposeContainer) :
    Prop :=
  ∀ dir, container.workingDir = some dir → dir ≠ "" → ∃ path, platform.resolve dir = .ok path

section

variable {platform : DiscoveryPlatform} {manifest : ApplicationManifest} {runtime : ComposeRuntime}
  {container : ComposeContainer} {text : String}

theorem PortText.isDigit (h : PortText text) (hdigits : platform.ReadsDigits) :
    isDigit platform text = true := by
  rw [Ports.isDigit, Bool.and_eq_true, List.all_eq_true]
  refine ⟨?_, fun c hc => (hdigits c (h.digits c hc)).1⟩
  have hne : text.toList ≠ [] := fun hnil => h.ne_empty (String.toList_injective hnil)
  simpa using hne

theorem PortText.intOf (h : PortText text) (hdigits : platform.ReadsDigits) :
    intOf platform text = .ok (portNumber text) := by
  have hne : text.toList ≠ [] := fun hnil => h.ne_empty (String.toList_injective hnil)
  have hread : PythonNumber.intOfText platform.decimalDigit text.toList =
      some (JsonText.digitsValue text.toList : ℤ) :=
    PythonNumber.intOfText_digits hne h.short h.digits fun c hc => (hdigits c (h.digits c hc)).2
  rw [Ports.intOf, pythonInt, hread]
  rfl

theorem validHostPort_valid {port : ℕ} (h : 1 ≤ port ∧ port ≤ 65535) :
    validHostPort port = .ok port := by
  rw [validHostPort, if_pos (by omega), Int.toNat_natCast]

theorem service_text (container : ComposeContainer) :
    Logs.cursorText (member? container.labels "com.docker.compose.service") =
      .ok container.service := by
  rw [container.service_eq]
  cases container.service <;> rfl

theorem observedBinding_published (hdigits : platform.ReadsDigits) (container : ComposeContainer)
    (port : ExposedPort) (transport : Transport) (binding : HostBinding) :
    observedBinding platform manifest container.id container.labels transport port.number
        (.obj binding.members) =
      .ok (some (binding.observed manifest container port transport)) := by
  have hdigit := binding.text.isDigit hdigits
  have hport := binding.text.intOf hdigits
  have hnumber := port.text.intOf hdigits
  simp only [observedBinding, asObject, binding.port_eq, binding.ip_eq, messageText, hdigit, hport,
    hnumber, bindAddress, service_text, validHostPort_valid binding.valid, bind, Except.bind, pure,
    Except.pure, Bool.not_true, Bool.false_eq_true, if_false, Int.toNat_natCast]
  rfl

theorem observedEntry_published (hdigits : platform.ReadsDigits) (container : ComposeContainer)
    (port : ExposedPort) :
    observedEntry platform manifest container.id container.labels (port.key, port.value) =
      .ok (port.published manifest container) := by
  have hslash : '/' ∉ port.number.toList := by
    intro hmem
    exact absurd (port.text.digits _ hmem) (by decide)
  have hkey : LineText.partition port.key '/' = (port.number, some port.protocol) :=
    LineText.partition_append hslash
  rw [ExposedPort.published, observedEntry]
  by_cases hnone : port.bindings = []
  · have hfalse : truthy platform.toComposePlatform port.value = false := by
      rcases port.value_eq with hvalue | ⟨-, hvalue⟩
      · rw [hvalue, hnone]
        rfl
      · rw [hvalue]
        rfl
    rw [if_pos hfalse, hnone]
    cases transport? port.protocol <;> rfl
  · have hvalue := port.value_eq.resolve_right fun hno => hnone hno.1
    have htrue : truthy platform.toComposePlatform port.value = true := by
      rw [hvalue, truthy]
      simpa using hnone
    rw [if_neg (by rw [htrue]; exact Bool.noConfusion)]
    simp only [hkey, Option.getD_some]
    cases transport? port.protocol with
    | none => rfl
    | some transport =>
      have hmap : (port.bindings.map fun binding => Json.obj binding.members).mapM
          (observedBinding platform manifest container.id container.labels transport port.number) =
          .ok (port.bindings.map fun binding =>
            some (binding.observed manifest container port transport)) := by
        rw [List.mapM_map]
        exact Traversals.mapM_eq fun binding _ =>
          observedBinding_published hdigits container port transport binding
      simp only [port.text.isDigit hdigits, Bool.true_eq_false, if_false, hvalue, bindingItems,
        bind, Except.bind, hmap, pure, Except.pure, List.filterMap_map, Function.comp_def, id_eq]
      exact congrArg Except.ok (congrFun List.filterMap_eq_map port.bindings)

/-- The items of a dictionary whose keys differ. -/
theorem dictOf_of_nodup {items : List (String × Json)} (h : (items.map Prod.fst).Nodup) :
    dictOf items = items := by
  rw [dictOf, FirstOccurrences.firsts_of_nodup h, List.filterMap_map]
  have hitem : ∀ m ∈ items, ((fun key => (JsonDump.lastValue items key).map fun v => (key, v)) ∘
      Prod.fst) m = some m := by
    intro m hm
    show (JsonDump.lastValue items m.1).map (fun v => (m.1, v)) = some m
    rw [(JsonDump.lastValue_iff_mem h).mpr hm]
    rfl
  rw [List.filterMap_congr hitem, List.filterMap_some]

/-- The test of the directory, where it can be made. -/
theorem inWorkingDir_belongs (hproject : inProject runtime container.labels = true)
    (hresolves : container.Resolves platform) :
    inWorkingDir platform runtime container.labels = .ok (container.belongs platform runtime) := by
  have hsame : container.project = some (expectedProject runtime) := by
    rw [inProject, container.project_eq] at hproject
    cases hwhich : container.project with
    | none =>
      rw [hwhich] at hproject
      cases hproject
    | some project =>
      rw [hwhich] at hproject
      exact congrArg some (of_decide_eq_true hproject)
  rw [inWorkingDir, trueMember?, container.workingDir_eq, ComposeContainer.belongs, hsame,
    beq_self_eq_true, Bool.true_and]
  cases hdir : container.workingDir with
  | none => rfl
  | some dir =>
    by_cases hempty : dir = ""
    · subst hempty
      rfl
    · obtain ⟨path, hpath⟩ := hresolves dir hdir hempty
      have hkept : (some (Json.str dir)).filter (truthy platform.toComposePlatform) =
          some (.str dir) := by
        rw [Option.filter_some, if_pos (by simpa [truthy] using hempty)]
      have hkept' : (some dir).filter (· ≠ "") = some dir := by
        rw [Option.filter_some, if_pos (by simpa using hempty)]
      simp only [Option.map_some, hkept, hkept', hpath]
      rfl

theorem inProject_eq (runtime : ComposeRuntime) (container : ComposeContainer) :
    inProject runtime container.labels = (container.project == some (expectedProject runtime)) := by
  rw [inProject, container.project_eq]
  cases container.project with
  | none => rfl
  | some project => by_cases hsame : project = expectedProject runtime <;> simp [hsame]

theorem getDict_obj {members object : List (String × Json)} {name : String}
    (h : member? members name = some (.obj object)) :
    getDict platform members name = .ok object := by
  rw [getDict, trueMember?, h]
  cases object <;> rfl

theorem getObject_obj {members object : List (String × Json)} {name : String}
    (h : member? members name = some (.obj object)) : getObject members name = .ok object := by
  rw [getObject, h]
  rfl

theorem observedContainer_published (hdigits : platform.ReadsDigits)
    (hresolves : container.Resolves platform) :
    observedContainer platform manifest runtime (container.id, container.members) =
      .ok (if container.belongs platform runtime then
        container.ports.flatMap (·.published manifest container) else []) := by
  have hlabels : labelsOf platform container.members = .ok container.labels := by
    rw [labelsOf, getObject_obj container.config_eq]
    exact getDict_obj container.labels_eq
  have hports : portsOf platform container.members =
      .ok (container.ports.map fun port => (port.key, port.value)) := by
    rw [portsOf, getObject_obj container.settings_eq]
    exact getDict_obj container.ports_eq
  have hkeys : dictOf (container.ports.map fun port => (port.key, port.value)) =
      container.ports.map fun port => (port.key, port.value) := by
    apply dictOf_of_nodup
    rw [List.map_map]
    exact container.keys
  have hentries : (container.ports.map fun port => (port.key, port.value)).mapM
      (observedEntry platform manifest container.id container.labels) =
      .ok (container.ports.map (·.published manifest container)) := by
    rw [List.mapM_map]
    exact Traversals.mapM_eq fun port _ => observedEntry_published hdigits container port
  cases hproject : inProject runtime container.labels with
  | false =>
    have hout : container.belongs platform runtime = false := by
      rw [ComposeContainer.belongs, ← inProject_eq, hproject, Bool.false_and]
    simp only [observedContainer, hlabels, hproject, hout, bind, Except.bind, pure, Except.pure,
      Bool.false_eq_true, if_true, if_false]
  | true =>
    have hdir := inWorkingDir_belongs hproject hresolves
    simp only [observedContainer, hlabels, hproject, hdir, hports, hkeys, hentries, bind,
      Except.bind, pure, Except.pure, Bool.true_eq_false, if_false]
    cases container.belongs platform runtime with
    | false => rfl
    | true => rfl

/-- **What is observed are the published ports** of the project, one by one and in order. -/
theorem observed_published (hdigits : platform.ReadsDigits) {containers : List ComposeContainer}
    (hresolves : ∀ container ∈ containers, container.Resolves platform) :
    observedFromContainers platform manifest runtime
        (containers.map fun container => (container.id, container.members)) =
      .ok (publishedPorts platform manifest runtime containers) := by
  have hmap : (containers.map fun container => (container.id, container.members)).mapM
      (observedContainer platform manifest runtime) =
      .ok (containers.map fun container =>
        if container.belongs platform runtime then
          container.ports.flatMap (·.published manifest container) else []) := by
    rw [List.mapM_map]
    exact Traversals.mapM_eq fun container hmem =>
      observedContainer_published hdigits (hresolves container hmem)
  rw [observedFromContainers, hmap]
  show Except.ok _ = Except.ok _
  congr 1
  rw [publishedPorts]
  clear hmap hresolves
  induction containers with
  | nil => rfl
  | cons container containers ih =>
    rw [List.map_cons, List.flatten_cons, ih, List.filter_cons]
    split_ifs
    · rw [List.flatMap_cons]
    · rfl

end

end MachineDeck.Ports

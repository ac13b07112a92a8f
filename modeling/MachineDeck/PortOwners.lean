import MachineDeck.PortService
import Mathlib.Data.List.Perm.Basic

/-!
# The applications of listeners

Which application `system_ports` gives a listener, in every order of the records.

* `WithPid`, `OnSocket`, `Near` — how an application was observed: with the process of a listener, on
  its very address, or in a way that the test of `system_ports` lets pass;
* `OwnersExact` — the attribution by process and otherwise by address, and what `conflicts` may
  leave out because of it;
* `Unambiguous` — a listener of an observed process is near one application only, and any other is
  near only those that were observed on its address;
* `owners_exact_iff` — the attribution is exact in every order of the records if and only if the
  observations are unambiguous.
-/

namespace MachineDeck.Ports

/-! ### Observations of an application -/

def SamePid (listener item : ObservedPort) : Prop :=
  ∃ pid, listener.pid = some pid ∧ item.pid = some pid

def SameSocket (listener item : ObservedPort) : Prop :=
  listener.protocol = item.protocol ∧ listener.hostPort = item.hostPort ∧
    listener.bindAddress = item.bindAddress

/-- An application has an observed port of the given kind. -/
def Observed (kind : ObservedPort → Prop) (records : List ManagedRecord) (id : String) : Prop :=
  ∃ record ∈ records, record.id = id ∧ ∃ item ∈ record.observed.getD [], kind item

def WithPid (records : List ManagedRecord) (id : String) (listener : ObservedPort) : Prop :=
  Observed (SamePid listener) records id

def OnSocket (records : List ManagedRecord) (id : String) (listener : ObservedPort) : Prop :=
  Observed (SameSocket listener) records id

def Near (records : List ManagedRecord) (id : String) (listener : ObservedPort) : Prop :=
  Observed (fun item => attributable listener item = true) records id

theorem Observed.perm {kind : ObservedPort → Prop} {records reordered : List ManagedRecord}
    (h : reordered.Perm records) {id : String} :
    Observed kind reordered id ↔ Observed kind records id := by
  simp only [Observed, h.mem_iff]

theorem attributable_of_pid {listener item : ObservedPort} (h : SamePid listener item) :
    attributable listener item = true := by
  obtain ⟨pid, hlistener, hitem⟩ := h
  simp [attributable, hlistener, hitem]

theorem WithPid.near {records : List ManagedRecord} {id : String} {listener : ObservedPort}
    (h : WithPid records id listener) : Near records id listener := by
  obtain ⟨record, hrecord, hid, item, hitem, hpid⟩ := h
  exact ⟨record, hrecord, hid, item, hitem, attributable_of_pid hpid⟩

/-! ### The owner -/

/-- The application that a listener is given. -/
def owner (records : List ManagedRecord) (listener : ObservedPort) : Option String :=
  (attributed (managedObservations records) listener).applicationId

section Owner

variable {records : List ManagedRecord} {listener : ObservedPort}

theorem mem_managedObservations {item : ObservedPort} :
    item ∈ managedObservations records ↔ ∃ record ∈ records, ∃ found ∈ record.observed.getD [],
      { found with applicationId := some record.id } = item := by
  simp only [managedObservations, List.mem_flatMap, ManagedRecord.items, List.mem_map]

/-- Whoever is given the listener is near it. -/
theorem near_of_owner {id : String} (h : owner records listener = some id)
    (hscanned : listener.applicationId = none) : Near records id listener := by
  rw [owner, attributed] at h
  cases hfound : (managedObservations records).find? (attributable listener) with
  | none =>
    rw [hfound] at h
    rw [hscanned] at h
    cases h
  | some item =>
    rw [hfound] at h
    have htest := List.find?_some hfound
    obtain ⟨record, hrecord, found, hmem, rfl⟩ :=
      mem_managedObservations.mp (List.mem_of_find?_eq_some hfound)
    cases h
    exact ⟨record, hrecord, rfl, found, hmem, htest⟩

/-- Where an application is near a listener, one of them is given it. -/
theorem owner_of_near {id : String} (h : Near records id listener) :
    ∃ given, owner records listener = some given := by
  obtain ⟨record, hrecord, -, item, hitem, htest⟩ := h
  cases hfound : (managedObservations records).find? (attributable listener) with
  | none =>
    have hnone := List.find?_eq_none.mp hfound { item with applicationId := some record.id }
      (mem_managedObservations.mpr ⟨record, hrecord, item, hitem, rfl⟩)
    exact absurd htest hnone
  | some found =>
    obtain ⟨record', -, found', -, rfl⟩ :=
      mem_managedObservations.mp (List.mem_of_find?_eq_some hfound)
    refine ⟨record'.id, ?_⟩
    rw [owner, attributed, hfound]

/-- Every application that is near a listener comes first in some order of the records. -/
theorem owner_of_perm {id : String} (h : Near records id listener) :
    ∃ reordered, reordered.Perm records ∧ owner reordered listener = some id := by
  obtain ⟨record, hrecord, rfl, item, hitem, htest⟩ := h
  obtain ⟨front, back, rfl⟩ := List.append_of_mem hrecord
  refine ⟨record :: (front ++ back), List.perm_middle.symm, ?_⟩
  have hfirst : ∃ found, record.items.find? (attributable listener) = some found := by
    apply Option.isSome_iff_exists.mp
    rw [List.find?_isSome]
    exact ⟨{ item with applicationId := some record.id }, List.mem_map_of_mem hitem, htest⟩
  obtain ⟨found, hfound⟩ := hfirst
  obtain ⟨item', -, rfl⟩ := List.mem_map.mp (List.mem_of_find?_eq_some hfound)
  rw [owner, attributed, managedObservations, List.flatMap_cons, List.find?_append, hfound]
  rfl

end Owner

/-! ### Exactness -/

structure OwnersExact (records : List ManagedRecord) (listeners : List ObservedPort) : Prop where
  /-- A listener of an observed process goes to an application that was observed with it. -/
  pid : ∀ listener ∈ listeners, (∃ id, WithPid records id listener) →
    ∃ id, owner records listener = some id ∧ WithPid records id listener
  /-- Another one goes only to an application that was observed on its address. -/
  socket : ∀ listener ∈ listeners, (¬ ∃ id, WithPid records id listener) →
    ∀ id, owner records listener = some id → OnSocket records id listener
  /-- Another order of the records changes no attribution by process. -/
  stable : ∀ reordered, reordered.Perm records → ∀ listener ∈ listeners,
    (∃ id, WithPid records id listener) → owner reordered listener = owner records listener
  /-- What is in the way of an application, and is no conflict of it, is its own. -/
  own : ∀ (manifest : ApplicationManifest), ∀ declared ∈ manifest.ports, ∀ listener ∈ listeners,
    let shown := attributed (managedObservations records) listener
    listener.protocol = transportProtocol declared.protocol →
    listener.hostPort = declared.hostPort →
    addressesConflict declared.bindAddress listener.bindAddress = true →
    portConflict declared shown ∉ conflicts manifest (systemPorts records listeners) →
    WithPid records manifest.id listener ∨
      ((¬ ∃ id, WithPid records id listener) ∧ OnSocket records manifest.id listener)

structure Unambiguous (records : List ManagedRecord) (listener : ObservedPort) : Prop where
  pid : (∃ id, WithPid records id listener) → ∀ first second, Near records first listener →
    Near records second listener → first = second
  socket : (¬ ∃ id, WithPid records id listener) → ∀ id, Near records id listener →
    OnSocket records id listener

theorem Unambiguous.perm {records reordered : List ManagedRecord} {listener : ObservedPort}
    (hperm : reordered.Perm records) (h : Unambiguous records listener) :
    Unambiguous reordered listener := by
  constructor
  · rintro ⟨id, hid⟩ first second hfirst hsecond
    exact h.pid ⟨id, (Observed.perm hperm).mp hid⟩ first second ((Observed.perm hperm).mp hfirst)
      ((Observed.perm hperm).mp hsecond)
  · intro hnone id hid
    apply (Observed.perm hperm).mpr
    apply h.socket _ id ((Observed.perm hperm).mp hid)
    rintro ⟨other, hother⟩
    exact hnone ⟨other, (Observed.perm hperm).mpr hother⟩

section Exact

variable {records : List ManagedRecord} {listeners : List ObservedPort}

/-- What is left out as an application's own has been given to it. -/
theorem owner_of_hidden {manifest : ApplicationManifest} {declared : PortDefinition}
    (hdeclared : declared ∈ manifest.ports) {listener : ObservedPort} (hlistener : listener ∈ listeners)
    (hprotocol : listener.protocol = transportProtocol declared.protocol)
    (hport : listener.hostPort = declared.hostPort)
    (haddress : addressesConflict declared.bindAddress listener.bindAddress = true)
    (hhidden : portConflict declared (attributed (managedObservations records) listener) ∉
      conflicts manifest (systemPorts records listeners)) :
    owner records listener = some manifest.id := by
  have hfields : ∀ managed, (attributed managed listener).protocol = listener.protocol ∧
      (attributed managed listener).hostPort = listener.hostPort ∧
      (attributed managed listener).bindAddress = listener.bindAddress := by
    intro managed
    rw [attributed]
    cases managed.find? (attributable listener) <;> exact ⟨rfl, rfl, rfl⟩
  obtain ⟨hshownProtocol, hshownPort, hshownAddress⟩ := hfields (managedObservations records)
  by_contra hforeign
  apply hhidden
  refine List.mem_flatMap.mpr ⟨declared, hdeclared, List.mem_map_of_mem (List.mem_filter.mpr
    ⟨List.mem_map_of_mem hlistener, ?_⟩)⟩
  rw [collides, hshownProtocol, hshownPort, hshownAddress, haddress]
  rw [if_neg (fun h => h.elim (absurd hprotocol) (absurd hport)), if_neg (by decide)]
  exact if_neg hforeign

theorem ownersExact_of_unambiguous
    (hscanned : ∀ listener ∈ listeners, listener.applicationId = none)
    (h : ∀ listener ∈ listeners, Unambiguous records listener) :
    OwnersExact records listeners := by
  have hpid : ∀ listener ∈ listeners, (∃ id, WithPid records id listener) →
      ∃ id, owner records listener = some id ∧ WithPid records id listener := by
    rintro listener hlistener ⟨id, hid⟩
    obtain ⟨given, hgiven⟩ := owner_of_near hid.near
    have hsame := (h listener hlistener).pid ⟨id, hid⟩ id given hid.near
      (near_of_owner hgiven (hscanned listener hlistener))
    exact ⟨given, hgiven, hsame ▸ hid⟩
  have hsocket : ∀ listener ∈ listeners, (¬ ∃ id, WithPid records id listener) →
      ∀ id, owner records listener = some id → OnSocket records id listener :=
    fun listener hlistener hnone id hid => (h listener hlistener).socket hnone id
      (near_of_owner hid (hscanned listener hlistener))
  refine ⟨hpid, hsocket, ?_, ?_⟩
  · rintro reordered hperm listener hlistener ⟨id, hid⟩
    have hnone := hscanned listener hlistener
    obtain ⟨given, hgiven⟩ := owner_of_near hid.near
    obtain ⟨given', hgiven'⟩ := owner_of_near ((Observed.perm hperm).mpr hid.near)
    rw [hgiven, hgiven']
    exact congrArg some ((h listener hlistener).pid ⟨id, hid⟩ given' given
      ((Observed.perm hperm).mp (near_of_owner hgiven' hnone)) (near_of_owner hgiven hnone))
  · intro manifest declared hdeclared listener hlistener shown hprotocol hport haddress hhidden
    have howner := owner_of_hidden hdeclared hlistener hprotocol hport haddress hhidden
    by_cases hany : ∃ id, WithPid records id listener
    · obtain ⟨id, hid, hwith⟩ := hpid listener hlistener hany
      rw [howner] at hid
      exact .inl (Option.some.inj hid ▸ hwith)
    · exact .inr ⟨hany, hsocket listener hlistener hany manifest.id howner⟩

end Exact

theorem unambiguous_of_ownersExact {records : List ManagedRecord} {listeners : List ObservedPort}
    (h : ∀ reordered, reordered.Perm records → OwnersExact reordered listeners) :
    ∀ listener ∈ listeners, Unambiguous records listener := by
  intro listener hlistener
  constructor
  · intro hany first second hfirst hsecond
    have hstable := (h records (List.Perm.refl records)).stable
    obtain ⟨front, hfront, hfirst⟩ := owner_of_perm hfirst
    obtain ⟨other, hother, hsecond⟩ := owner_of_perm hsecond
    have hsame := (hstable front hfront listener hlistener hany).trans
      (hstable other hother listener hlistener hany).symm
    rw [hfirst, hsecond] at hsame
    exact Option.some.inj hsame
  · intro hnone id hid
    obtain ⟨reordered, hperm, howner⟩ := owner_of_perm hid
    apply (Observed.perm hperm).mp
    apply (h reordered hperm).socket listener hlistener _ id howner
    rintro ⟨other, hother⟩
    exact hnone ⟨other, (Observed.perm hperm).mp hother⟩

theorem scanned_unowned (processName : ℕ → Option String) (connections : List Connection) :
    ∀ listener ∈ scanHostListeners processName connections, listener.applicationId = none := by
  intro listener hlistener
  obtain ⟨connection, -, hconnection⟩ := List.mem_filterMap.mp hlistener
  cases haddress : connection.laddr with
  | none =>
    rw [haddress] at hconnection
    cases hconnection
  | some laddr =>
    rw [haddress] at hconnection
    simp only at hconnection
    split_ifs at hconnection
    all_goals
      cases hconnection
      rfl

/-- **Listener ownership is exact in every order of the records** if and only if the observations
are unambiguous for every listener. -/
theorem owners_exact_iff (records : List ManagedRecord) (processName : ℕ → Option String)
    (connections : List Connection) :
    (∀ reordered, reordered.Perm records →
        OwnersExact reordered (scanHostListeners processName connections)) ↔
      ∀ listener ∈ scanHostListeners processName connections, Unambiguous records listener := by
  have hscanned := scanned_unowned processName connections
  constructor
  · exact unambiguous_of_ownersExact
  · exact fun h reordered hperm => ownersExact_of_unambiguous hscanned fun listener hlistener =>
      (h listener hlistener).perm hperm

/-! ### A listener that goes to another application than the one with its process -/

def observedOn (ip : String) (pid : ℕ) : ObservedPort where
  bindAddress := ip
  hostPort := 8188
  protocol := .tcp
  pid := some pid
  source := .process

/-- One application on all addresses of IPv6, and one on the loopback address of IPv4. -/
def twoRecords : List ManagedRecord :=
  [⟨"greeter", some [observedOn "::" 111]⟩, ⟨"ollama", some [observedOn "127.0.0.1" 222]⟩]

def loopbackSocket : Connection where
  laddr := some ("127.0.0.1", 8188)
  stream := true
  listening := true
  pid := some 222

theorem loose_owner_first :
    ¬ OwnersExact twoRecords (scanHostListeners (fun _ => none) [loopbackSocket]) := by
  intro h
  have hlistener : { observedOn "127.0.0.1" 222 with source := .system } ∈
      scanHostListeners (fun _ => none) [loopbackSocket] := by decide +kernel
  have hpid : WithPid twoRecords "ollama" { observedOn "127.0.0.1" 222 with source := .system } :=
    ⟨_, List.mem_cons_of_mem _ List.mem_cons_self, rfl, _, List.mem_cons_self, 222, rfl, rfl⟩
  have howner : owner twoRecords { observedOn "127.0.0.1" 222 with source := .system } =
      some "greeter" := by decide +kernel
  obtain ⟨id, hid, record, hrecord, hname, item, hitem, pid, hsame, hother⟩ :=
    h.pid _ hlistener ⟨"ollama", hpid⟩
  rw [howner] at hid
  cases hid
  cases hsame
  revert hother
  rcases List.mem_cons.mp hrecord with rfl | hrecord
  · rw [List.mem_singleton.mp hitem]
    decide
  · rw [List.mem_singleton.mp hrecord] at hname
    exact absurd hname (by decide)

end MachineDeck.Ports

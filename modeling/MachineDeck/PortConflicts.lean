import MachineDeck.PortService
import Mathlib.Data.List.Basic
import Mathlib.Data.Set.Basic

/-!
# Exactness of the conflict detection

* `coverage` — the local addresses on which a socket is bound: 0.0.0.0 and :: stand for more than
  themselves;
* `addressesConflict_iff` — the test of two canonical texts is whether their addresses have a local
  address in common;
* `conflicts_eq` — a conflict for every pair of a declared port and a foreign listener that meet;
* `mappedCoverage`, `Hidden` — an address of IPv4 written as one of IPv6 stands for it, but the test
  takes it for a different one;
* `conflicts_exact_iff` — the conflicts are exact where no pair meets only through such an address.
-/

namespace MachineDeck.Ports

open IpAddress (ipAddress Address ipAddress_str)
open MachineDeck.Lifecycle (PortConflict)

/-! ### Coverage -/

def wildcardV4 : Address := .v4 0

def wildcardV6 : Address := .v6 0 none

/-- The local addresses on which a socket is bound. -/
def coverage (address : Address) : Set Address :=
  if address = wildcardV6 then Set.univ
  else if address = wildcardV4 then {local' | version local' = 4}
  else {address}

theorem mem_coverage {address local' : Address} :
    local' ∈ coverage address ↔
      address = wildcardV6 ∨ (address = wildcardV4 ∧ version local' = 4) ∨ local' = address := by
  unfold coverage
  split_ifs with hv6 hv4
  · exact iff_of_true (Set.mem_univ local') (.inl hv6)
  · constructor
    · exact fun hlocal => .inr (.inl ⟨hv4, hlocal⟩)
    · rintro (h | ⟨-, hlocal⟩ | rfl)
      · exact absurd h hv6
      · exact hlocal
      · rw [hv4]
        rfl
  · simp [hv6, hv4]

/-- Two sockets meet where their addresses are the same, or where one is a wildcard for the
other. -/
theorem coverage_inter_iff (first second : Address) :
    (coverage first ∩ coverage second).Nonempty ↔
      first = second ∨ (first = wildcardV6 ∨ second = wildcardV6) ∨
        (first = wildcardV4 ∧ version second = 4) ∨ (second = wildcardV4 ∧ version first = 4) := by
  constructor
  · rintro ⟨shared, hfirst, hsecond⟩
    rcases mem_coverage.mp hfirst with h | ⟨h, hversion⟩ | rfl
    · exact .inr (.inl (.inl h))
    · rcases mem_coverage.mp hsecond with h' | ⟨h', -⟩ | rfl
      · exact .inr (.inl (.inr h'))
      · exact .inl (h.trans h'.symm)
      · exact .inr (.inr (.inl ⟨h, hversion⟩))
    · rcases mem_coverage.mp hsecond with h' | ⟨h', hversion⟩ | rfl
      · exact .inr (.inl (.inr h'))
      · exact .inr (.inr (.inr ⟨h', hversion⟩))
      · exact .inl rfl
  · have hself : ∀ address, address ∈ coverage address := fun _ => mem_coverage.mpr (.inr (.inr rfl))
    rintro (rfl | (h | h) | ⟨h, hversion⟩ | ⟨h, hversion⟩)
    · exact ⟨first, hself first, hself first⟩
    · exact ⟨second, mem_coverage.mpr (.inl h), hself second⟩
    · exact ⟨first, hself first, mem_coverage.mpr (.inl h)⟩
    · exact ⟨second, mem_coverage.mpr (.inr (.inl ⟨h, hversion⟩)), hself second⟩
    · exact ⟨first, hself first, mem_coverage.mpr (.inr (.inl ⟨h, hversion⟩))⟩

/-! ### The test of two texts -/

/-- A text that the reader leaves as it is. -/
def Canonical (text : String) : Prop := ∀ address, ipAddress text = some address → text = address.str

theorem Canonical.eq_iff {text : String} (h : Canonical text) {address other : Address}
    (hread : ipAddress text = some address) : text = other.str ↔ address = other := by
  constructor
  · intro htext
    rw [htext, ipAddress_str] at hread
    exact (Option.some.inj hread).symm
  · intro hsame
    rw [h address hread, hsame]

theorem canonical_normalizeAddress (value : String) : Canonical (normalizeAddress value) := by
  intro address hread
  unfold normalizeAddress at hread ⊢
  split_ifs at hread ⊢ with hany
  · have hwildcard : ipAddress "0.0.0.0" = some wildcardV4 := by decide
    rw [hwildcard] at hread
    rw [← Option.some.inj hread]
    decide
  · cases hvalue : ipAddress value with
    | none =>
      rw [hvalue] at hread
      exact absurd (hread.symm.trans hvalue) (Option.some_ne_none address)
    | some found =>
      rw [hvalue] at hread
      simp only [ipAddress_str, Option.some.injEq] at hread
      simp only [hread]

/-- A common local address of two texts. -/
def Meet (covers : Address → Set Address) (first second : String) : Prop :=
  ∃ firstIp secondIp, ipAddress first = some firstIp ∧ ipAddress second = some secondIp ∧
    (covers firstIp ∩ covers secondIp).Nonempty

theorem addressesConflict_iff {first second : String} {firstIp : Address}
    (hfirst : ipAddress first = some firstIp) (hcanonical : Canonical first)
    (hsecond : Canonical second) : addressesConflict first second = true ↔ Meet coverage first second := by
  have hv6 : wildcardV6.str = "::" := by decide
  have hv4 : wildcardV4.str = "0.0.0.0" := by decide
  cases hread : ipAddress second with
  | none =>
    -- a text that is no address is none of its canonical texts either
    have hne : first ≠ second := by
      rintro rfl
      exact absurd (hfirst.symm.trans hread) (Option.some_ne_none firstIp)
    constructor
    · intro h
      rw [addressesConflict, hfirst, hread] at h
      exact absurd (beq_iff_eq.mp h) hne
    · rintro ⟨-, secondIp, -, hsome, -⟩
      exact absurd (hsome.symm.trans hread) (Option.some_ne_none secondIp)
  | some secondIp =>
    have hmeet : Meet coverage first second ↔ (coverage firstIp ∩ coverage secondIp).Nonempty := by
      simp [Meet, hfirst, hread]
    rw [hmeet, coverage_inter_iff, addressesConflict, hfirst, hread, ← hv6, ← hv4]
    simp only [hcanonical.eq_iff hfirst, hsecond.eq_iff hread]
    split_ifs with hsame hv6 hfirstV4 hsecondV4
    · exact iff_of_true rfl (.inl hsame)
    · exact iff_of_true rfl (.inr (.inl hv6))
    · exact iff_of_true rfl (.inr (.inr (.inl hfirstV4)))
    · exact iff_of_true rfl (.inr (.inr (.inr hsecondV4)))
    · refine iff_of_false not_false ?_
      rintro (h | h | h | h)
      · exact hsame h
      · exact hv6 h
      · exact hfirstV4 h
      · exact hsecondV4 h

/-! ### Conflicts -/

/-- A foreign listener on the transport and the port of a declared port, on a common local
address. -/
structure Collision (covers : Address → Set Address) (manifest : ApplicationManifest)
    (declared : PortDefinition) (listener : ObservedPort) : Prop where
  protocol : listener.protocol = transportProtocol declared.protocol
  port : listener.hostPort = declared.hostPort
  foreign : listener.applicationId ≠ some manifest.id
  meet : Meet covers declared.bindAddress listener.bindAddress

theorem collides_iff {manifest : ApplicationManifest} {declared : PortDefinition}
    {listener : ObservedPort} {given raw : String}
    (hdeclared : validateBindAddress given = some declared.bindAddress)
    (hlistener : listener.bindAddress = normalizeAddress raw) :
    collides manifest declared listener = true ↔ Collision coverage manifest declared listener := by
  obtain ⟨address, -, haddress⟩ := Option.map_eq_some_iff.mp hdeclared
  have hread : ipAddress declared.bindAddress = some address := by rw [← haddress, ipAddress_str]
  have hcanonical : Canonical declared.bindAddress := by
    intro other hother
    rw [hread] at hother
    rw [← haddress, Option.some.inj hother]
  have hlistener : Canonical listener.bindAddress := by
    rw [hlistener]
    exact canonical_normalizeAddress raw
  have hmeet := addressesConflict_iff hread hcanonical hlistener
  unfold collides
  split_ifs with hother hapart hown
  · refine iff_of_false not_false ?_
    exact fun h => hother.elim (fun hne => hne h.protocol) fun hne => hne h.port
  · refine iff_of_false not_false ?_
    intro h
    rw [hmeet.mpr h.meet] at hapart
    cases hapart
  · refine iff_of_false not_false ?_
    exact fun h => h.foreign hown
  · push Not at hother
    exact iff_of_true rfl ⟨hother.1, hother.2, hown, hmeet.mp (Bool.of_not_eq_false hapart)⟩

/-- The scan, each listener with the application it is attributed to. -/
def ownedListeners (processName : ℕ → Option String) (connections : List Connection)
    (owner : ObservedPort → Option String) : List ObservedPort :=
  (scanHostListeners processName connections).map fun listener =>
    { listener with applicationId := owner listener }

theorem ownedListeners_normalized {processName : ℕ → Option String} {connections : List Connection}
    {owner : ObservedPort → Option String} {listener : ObservedPort}
    (h : listener ∈ ownedListeners processName connections owner) :
    ∃ raw, listener.bindAddress = normalizeAddress raw := by
  obtain ⟨scanned, hscanned, rfl⟩ := List.mem_map.mp h
  obtain ⟨connection, -, hconnection⟩ := List.mem_filterMap.mp hscanned
  cases haddress : connection.laddr with
  | none =>
    rw [haddress] at hconnection
    cases hconnection
  | some laddr =>
    rw [haddress] at hconnection
    simp only at hconnection
    split_ifs at hconnection
    all_goals
      cases hconnection
      exact ⟨laddr.1, rfl⟩

open scoped Classical in
/-- The entries for the declared ports and the listeners that collide, in the order of both. -/
noncomputable def collisions (covers : Address → Set Address) (manifest : ApplicationManifest)
    (listeners : List ObservedPort) : List PortConflict :=
  ((manifest.ports ×ˢ listeners).filter fun pair =>
    decide (Collision covers manifest pair.1 pair.2)).map fun pair => portConflict pair.1 pair.2

/-- The conflicts are the collisions on the addresses that the texts stand for. -/
theorem conflicts_eq (manifest : ApplicationManifest)
    (hdeclared : ∀ declared ∈ manifest.ports, ∃ given,
      validateBindAddress given = some declared.bindAddress)
    (processName : ℕ → Option String) (connections : List Connection)
    (owner : ObservedPort → Option String) :
    conflicts manifest (ownedListeners processName connections owner) =
      collisions coverage manifest (ownedListeners processName connections owner) := by
  have hpairs : manifest.ports ×ˢ ownedListeners processName connections owner =
      manifest.ports.flatMap fun declared =>
        (ownedListeners processName connections owner).map (Prod.mk declared) := rfl
  classical
  rw [collisions, hpairs, List.filter_flatMap, List.map_flatMap, conflicts]
  apply List.flatMap_congr
  intro declared hmem
  obtain ⟨given, hgiven⟩ := hdeclared declared hmem
  rw [List.filter_map, List.map_map]
  congr 1
  apply List.filter_congr
  intro listener hlistener
  obtain ⟨raw, hraw⟩ := ownedListeners_normalized hlistener
  rw [Bool.eq_iff_iff, collides_iff hgiven hraw]
  exact decide_eq_true_iff.symm

/-! ### Addresses of IPv4 written as addresses of IPv6 -/

/-- `ipv4_mapped`. -/
def ipv4Mapped : Address → Option (Fin (2 ^ 32))
  | .v4 _ => none
  | .v6 value _ =>
    if value.val / 2 ^ 32 = 65535 then some (Fin.ofNat (2 ^ 32) value.val) else none

/-- The coverage where such an address stands for the address of IPv4 in it. -/
def mappedCoverage (address : Address) : Set Address :=
  match ipv4Mapped address with
  | some value => {.v4 value}
  | none => coverage address

/-- The second address is, stands for, or is a wildcard for, the one of IPv4 in the first. -/
def Stands (first second : Address) : Prop :=
  ∃ value, ipv4Mapped first = some value ∧
    (second = .v4 value ∨ second = wildcardV4 ∨ ipv4Mapped second = some value)

/-- Two addresses that meet only through the address of IPv4 in one of them. -/
def Hidden (first second : Address) : Prop :=
  first ≠ second ∧ (Stands first second ∨ Stands second first)

theorem mapped_ne_wildcard {address : Address} {value : Fin (2 ^ 32)}
    (h : ipv4Mapped address = some value) : address ≠ wildcardV4 ∧ address ≠ wildcardV6 ∧
      version address = 6 := by
  refine ⟨?_, ?_, ?_⟩
  · rintro rfl
    cases h
  · rintro rfl
    have hunmapped : ipv4Mapped wildcardV6 = none := by decide
    rw [hunmapped] at h
    cases h
  · cases address with
    | v4 value => cases h
    | v6 value zone => rfl

theorem mem_mappedCoverage {address local' : Address} :
    local' ∈ mappedCoverage address ↔
      (∃ value, ipv4Mapped address = some value ∧ local' = .v4 value) ∨
        (ipv4Mapped address = none ∧ local' ∈ coverage address) := by
  unfold mappedCoverage
  cases ipv4Mapped address with
  | none => simp
  | some value => simp

/-- A mapped address, and one that is not mapped. -/
theorem mappedCoverage_inter_plain {first second : Address} {value : Fin (2 ^ 32)}
    (hfirst : ipv4Mapped first = some value) (hsecond : ipv4Mapped second = none) :
    (mappedCoverage first ∩ mappedCoverage second).Nonempty ↔
      (coverage first ∩ coverage second).Nonempty ∨ Hidden first second := by
  obtain ⟨hnotV4, hnotV6, hversion⟩ := mapped_ne_wildcard hfirst
  have hne : first ≠ second := by
    rintro rfl
    rw [hfirst] at hsecond
    cases hsecond
  have hstands : ¬ Stands second first := by
    rintro ⟨found, hfound, -⟩
    rw [hsecond] at hfound
    cases hfound
  have hmeet : (mappedCoverage first ∩ mappedCoverage second).Nonempty ↔
      .v4 value ∈ coverage second := by
    rw [mappedCoverage, mappedCoverage, hfirst, hsecond]
    exact Set.singleton_inter_nonempty
  rw [hmeet, coverage_inter_iff, mem_coverage, Hidden, or_iff_left hstands, Stands, hfirst, hsecond]
  have hwildcard : version (Address.v4 value) = 4 := rfl
  have hother : ¬ version first = 4 := by omega
  simp only [hne, hnotV4, hnotV6, hwildcard, hother, Option.some.injEq, exists_eq_left']
  constructor
  · rintro (h | ⟨h, -⟩ | h)
    · exact .inl (.inr (.inl (.inr h)))
    · exact .inr ⟨hne, .inr (.inl h)⟩
    · exact .inr ⟨hne, .inl h.symm⟩
  · rintro ((h | (h | h) | ⟨h, -⟩ | ⟨-, h⟩) | ⟨-, h | h | h⟩)
    all_goals first
      | exact absurd h not_false
      | exact .inl h
      | exact .inr (.inr h.symm)
      | exact .inr (.inl ⟨h, trivial⟩)
      | cases h

theorem Hidden.symm {first second : Address} (h : Hidden first second) : Hidden second first :=
  ⟨h.1.symm, h.2.symm⟩

/-- Reading mapped addresses as addresses of IPv4 adds the hidden meetings, and nothing else. -/
theorem mappedCoverage_inter_iff (first second : Address) :
    (mappedCoverage first ∩ mappedCoverage second).Nonempty ↔
      (coverage first ∩ coverage second).Nonempty ∨ Hidden first second := by
  cases hfirst : ipv4Mapped first with
  | none =>
    cases hsecond : ipv4Mapped second with
    | none =>
      have hidden : ¬ Hidden first second := by
        rintro ⟨-, ⟨value, hvalue, -⟩ | ⟨value, hvalue, -⟩⟩
        · rw [hfirst] at hvalue
          cases hvalue
        · rw [hsecond] at hvalue
          cases hvalue
      rw [mappedCoverage, mappedCoverage, hfirst, hsecond, or_iff_left hidden]
    | some value =>
      rw [Set.inter_comm, mappedCoverage_inter_plain hsecond hfirst, Set.inter_comm]
      exact or_congr_right ⟨Hidden.symm, Hidden.symm⟩
  | some value =>
    cases hsecond : ipv4Mapped second with
    | none => exact mappedCoverage_inter_plain hfirst hsecond
    | some other =>
      obtain ⟨hfirstV4, hfirstV6, -⟩ := mapped_ne_wildcard hfirst
      obtain ⟨hsecondV4, hsecondV6, -⟩ := mapped_ne_wildcard hsecond
      have hmeet : (mappedCoverage first ∩ mappedCoverage second).Nonempty ↔ value = other := by
        rw [mappedCoverage, mappedCoverage, hfirst, hsecond, Set.singleton_inter_nonempty,
          Set.mem_singleton_iff, Address.v4.injEq]
      have hapart : ∀ v, second ≠ .v4 v ∧ first ≠ .v4 v := by
        intro v
        constructor
        · rintro rfl
          cases hsecond
        · rintro rfl
          cases hfirst
      rw [hmeet, coverage_inter_iff]
      constructor
      · rintro rfl
        by_cases hsame : first = second
        · exact .inl (.inl hsame)
        · exact .inr ⟨hsame, .inl ⟨value, hfirst, .inr (.inr hsecond)⟩⟩
      · rintro ((rfl | (h | h) | ⟨h, -⟩ | ⟨h, -⟩) |
          ⟨-, ⟨v, hv, h | h | h⟩ | ⟨v, hv, h | h | h⟩⟩)
        · exact Option.some.inj (hfirst.symm.trans hsecond)
        · exact absurd h hfirstV6
        · exact absurd h hsecondV6
        · exact absurd h hfirstV4
        · exact absurd h hsecondV4
        · exact absurd h (hapart v).1
        · exact absurd h hsecondV4
        · exact Option.some.inj ((hfirst.symm.trans hv).trans (h.symm.trans hsecond))
        · exact absurd h (hapart v).2
        · exact absurd h hfirstV4
        · exact Option.some.inj ((hfirst.symm.trans h).trans (hv.symm.trans hsecond))

/-- A declared port and a foreign listener that meet only through an address of IPv4 that one of
them writes as an address of IPv6. -/
structure HiddenCollision (manifest : ApplicationManifest) (declared : PortDefinition)
    (listener : ObservedPort) : Prop where
  protocol : listener.protocol = transportProtocol declared.protocol
  port : listener.hostPort = declared.hostPort
  foreign : listener.applicationId ≠ some manifest.id
  hidden : ∃ first second, ipAddress declared.bindAddress = some first ∧
    ipAddress listener.bindAddress = some second ∧ Hidden first second

theorem meet_mapped_iff (first second : String) :
    Meet mappedCoverage first second ↔ Meet coverage first second ∨
      ∃ firstIp secondIp, ipAddress first = some firstIp ∧ ipAddress second = some secondIp ∧
        Hidden firstIp secondIp := by
  constructor
  · rintro ⟨firstIp, secondIp, hfirst, hsecond, h⟩
    rcases (mappedCoverage_inter_iff firstIp secondIp).mp h with h | h
    · exact .inl ⟨firstIp, secondIp, hfirst, hsecond, h⟩
    · exact .inr ⟨firstIp, secondIp, hfirst, hsecond, h⟩
  · rintro (⟨firstIp, secondIp, hfirst, hsecond, h⟩ | ⟨firstIp, secondIp, hfirst, hsecond, h⟩)
    · exact ⟨firstIp, secondIp, hfirst, hsecond, (mappedCoverage_inter_iff _ _).mpr (.inl h)⟩
    · exact ⟨firstIp, secondIp, hfirst, hsecond, (mappedCoverage_inter_iff _ _).mpr (.inr h)⟩

theorem collision_mapped_iff (manifest : ApplicationManifest) (declared : PortDefinition)
    (listener : ObservedPort) :
    Collision mappedCoverage manifest declared listener ↔
      Collision coverage manifest declared listener ∨
        HiddenCollision manifest declared listener := by
  constructor
  · rintro ⟨hprotocol, hport, hforeign, hmeet⟩
    rcases (meet_mapped_iff _ _).mp hmeet with hmeet | hhidden
    · exact .inl ⟨hprotocol, hport, hforeign, hmeet⟩
    · exact .inr ⟨hprotocol, hport, hforeign, hhidden⟩
  · rintro (⟨hprotocol, hport, hforeign, hmeet⟩ | ⟨hprotocol, hport, hforeign, hhidden⟩)
    · exact ⟨hprotocol, hport, hforeign, (meet_mapped_iff _ _).mpr (.inl hmeet)⟩
    · exact ⟨hprotocol, hport, hforeign, (meet_mapped_iff _ _).mpr (.inr hhidden)⟩

theorem Stands.apart {first second : Address} (h : Stands first second) (hne : first ≠ second) :
    ¬ (coverage first ∩ coverage second).Nonempty := by
  obtain ⟨value, hfirst, hsecond⟩ := h
  obtain ⟨hfirstV4, hfirstV6, hversion⟩ := mapped_ne_wildcard hfirst
  have hsecondV6 : second ≠ wildcardV6 := by
    rcases hsecond with rfl | rfl | hsecond
    · exact Address.noConfusion
    · decide
    · exact (mapped_ne_wildcard hsecond).2.1
  rw [coverage_inter_iff]
  rintro (h | (h | h) | ⟨h, -⟩ | ⟨-, h⟩)
  · exact hne h
  · exact hfirstV6 h
  · exact hsecondV6 h
  · exact hfirstV4 h
  · omega

theorem Hidden.apart {first second : Address} (h : Hidden first second) :
    ¬ (coverage first ∩ coverage second).Nonempty := by
  obtain ⟨hne, h | h⟩ := h
  · exact h.apart hne
  · rw [Set.inter_comm]
    exact h.apart hne.symm

theorem HiddenCollision.apart {manifest : ApplicationManifest} {declared : PortDefinition}
    {listener : ObservedPort} (h : HiddenCollision manifest declared listener) :
    ¬ Collision coverage manifest declared listener := by
  rintro ⟨-, -, -, first, second, hfirst, hsecond, hmeet⟩
  obtain ⟨first', second', hfirst', hsecond', hhidden⟩ := h.hidden
  rw [hfirst] at hfirst'
  rw [hsecond] at hsecond'
  cases hfirst'
  cases hsecond'
  exact hhidden.apart hmeet

/-- A list of selected elements is as long as that of more elements only if it is the same. -/
theorem filter_agree {α : Type} {p q : α → Bool} {l : List α} (hle : ∀ a, p a = true → q a = true)
    (hlength : (l.filter p).length = (l.filter q).length) : ∀ a ∈ l, q a = true → p a = true := by
  intro a ha hq
  have hle : p ≤ q := fun a => Bool.le_iff_imp.mpr (hle a)
  have hsame := (List.monotone_filter_right l hle).eq_of_length hlength
  have hmem : a ∈ l.filter p := by
    rw [hsame]
    exact List.mem_filter.mpr ⟨ha, hq⟩
  exact (List.mem_filter.mp hmem).2

/-- **Conflict detection is exact** if and only if no declared port and no foreign listener meet
only through an address of IPv4 written as one of IPv6. -/
theorem conflicts_exact_iff (manifest : ApplicationManifest)
    (hdeclared : ∀ declared ∈ manifest.ports, ∃ given,
      validateBindAddress given = some declared.bindAddress)
    (processName : ℕ → Option String) (connections : List Connection)
    (owner : ObservedPort → Option String) :
    conflicts manifest (ownedListeners processName connections owner) =
        collisions mappedCoverage manifest (ownedListeners processName connections owner) ↔
      ∀ declared ∈ manifest.ports, ∀ listener ∈ ownedListeners processName connections owner,
        ¬ HiddenCollision manifest declared listener := by
  classical
  rw [conflicts_eq manifest hdeclared, collisions, collisions]
  constructor
  · intro hsame declared hmem listener hlistener hhidden
    have hlength := congrArg List.length hsame
    rw [List.length_map, List.length_map] at hlength
    have hagree := filter_agree (fun pair hpair => decide_eq_true
      ((collision_mapped_iff manifest pair.1 pair.2).mpr (.inl (of_decide_eq_true hpair)))) hlength
      (declared, listener) (List.pair_mem_product.mpr ⟨hmem, hlistener⟩)
      (decide_eq_true ((collision_mapped_iff manifest declared listener).mpr (.inr hhidden)))
    exact hhidden.apart (of_decide_eq_true hagree)
  · intro hnone
    congr 1
    apply List.filter_congr
    rintro ⟨declared, listener⟩ hpair
    obtain ⟨hmem, hlistener⟩ := List.pair_mem_product.mp hpair
    rw [Bool.eq_iff_iff, decide_eq_true_iff, decide_eq_true_iff, collision_mapped_iff]
    exact (or_iff_left (hnone declared hmem listener hlistener)).symm

/-! ### A listener that is reported, and one that is not -/

def loopback : Fin (2 ^ 32) := 2130706433

/-- The loopback address of IPv4, written as one of IPv6. -/
def mappedLoopback : Address := .v6 281472812449793 none

def listenerOn (ip : String) : Connection where
  laddr := some (ip, 11434)
  stream := true
  listening := true
  pid := some 4242

theorem ollama_declared : ∀ declared ∈ ollama.ports, ∃ given,
    validateBindAddress given = some declared.bindAddress := by
  intro declared hdeclared
  rw [List.mem_singleton.mp hdeclared]
  exact ⟨"127.0.0.1", by decide⟩

theorem conflicts_exact_iff_loopback :
    conflicts ollama (ownedListeners (fun _ => none) [listenerOn "127.0.0.1"] fun _ => none) =
      collisions mappedCoverage ollama
        (ownedListeners (fun _ => none) [listenerOn "127.0.0.1"] fun _ => none) := by
  apply (conflicts_exact_iff ollama ollama_declared (fun _ => none) [listenerOn "127.0.0.1"]
    fun _ => none).mpr
  rintro declared hdeclared listener hlistener ⟨-, -, -, first, second, hfirst, hsecond, hne, -⟩
  rw [List.mem_singleton.mp hdeclared] at hfirst
  rw [List.mem_singleton.mp hlistener] at hsecond
  exact hne (Option.some.inj (hfirst.symm.trans hsecond))

/-- Nothing is reported of a listener on the same address. -/
theorem mapped_not_reported :
    conflicts ollama (ownedListeners (fun _ => none) [listenerOn "::ffff:127.0.0.1"] fun _ => none) =
        [] ∧
      ∃ declared ∈ ollama.ports, ∃ listener ∈
        ownedListeners (fun _ => none) [listenerOn "::ffff:127.0.0.1"] (fun _ => none),
        Collision mappedCoverage ollama declared listener := by
  refine ⟨by decide +kernel, _, List.mem_cons_self, _, List.mem_cons_self, ?_⟩
  rw [collision_mapped_iff]
  refine .inr ⟨rfl, rfl, by decide, .v4 loopback, mappedLoopback, by decide +kernel,
    by decide +kernel, by decide, .inr ⟨loopback, by decide, .inl rfl⟩⟩

end MachineDeck.Ports

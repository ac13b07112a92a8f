import MachineDeck.PortService
import MachineDeck.SchemaFields
import MachineDeck.UrlSplit

/-!
# Ports as they are given

`PortDefinition` of `schemas/applications.py` with its validators, from raw data to the model and
back.

* `validateWebPath`, `protocolSpecificFields`, `validatePort` — the validators;
* `PortAccepted` — what they leave: nothing that they would change or refuse;
* `dumpPort`, `validatePort_dump` — what has been written is accepted as it was.
-/

namespace MachineDeck

open JsonText (Json member?)
open Ports (validateBindAddress)
open UrlSplit (CaseTables urlsplit)

/-! ### The validators of a port -/

/-- `^[a-z0-9][a-z0-9-]*$`. -/
def portId (id : String) : Bool :=
  match id.toList with
  | [] => false
  | c :: cs => lowerOrDigit c && cs.all fun d => lowerOrDigit d || d == '-'

/-- `min_length` and `max_length`. -/
def lengthBetween (least most : ℕ) (text : String) : Bool :=
  decide (least ≤ text.length ∧ text.length ≤ most)

def readProtocol : Json → Option PortProtocol
  | .str "http" => some .http
  | .str "https" => some .https
  | .str "tcp" => some .tcp
  | .str "udp" => some .udp
  | _ => none

def PortProtocol.text : PortProtocol → String
  | .http => "http"
  | .https => "https"
  | .tcp => "tcp"
  | .udp => "udp"

/-- `validate_health_path`, which is the validator of both paths. -/
def validateWebPath (tables : CaseTables) (value : String) : Bool :=
  value.toList.head? == some '/' &&
    match urlsplit tables value.toList with
    | none => false
    | some parsed => parsed.scheme.isEmpty && parsed.netloc.isEmpty

def protocolSpecificFields (port : PortDefinition) : Option PortDefinition :=
  let isWeb := port.protocol.isWeb
  if !isWeb && (port.path.isSome || port.healthPath.isSome || port.primary || port.openInBrowser) then
    none
  else if isWeb && port.path.isNone then some { port with path := some "/" }
  else some port

def portFields : List String :=
  ["id", "name", "protocol", "host_port", "host", "bind_address", "path", "primary",
    "open_in_browser", "health_path"]

/-- `PortDefinition.model_validate`; of the two names for the host port only one may be given. -/
def validatePort (lax : LaxMode) (tables : CaseTables) : Json → Option PortDefinition
  | .obj members => do
    if !onlyFields portFields members ||
        ((member? members "host_port").isSome && (member? members "host").isSome) then none
    else
      let id ← required members "id" (lax.text portId)
      let name ← required members "name" (lax.text (lengthBetween 1 100))
      let protocol ← optional members "protocol" readProtocol .http
      let hostPort ← (member? members "host_port" <|> member? members "host").bind lax.int
      let bindAddress ← optional members "bind_address"
        (fun value => (lax.str value).bind validateBindAddress) "127.0.0.1"
      let path ← optional members "path" (nullable (lax.text (validateWebPath tables))) none
      let primary ← optional members "primary" lax.bool false
      let openInBrowser ← optional members "open_in_browser" lax.bool false
      let healthPath ← optional members "health_path"
        (nullable (lax.text (validateWebPath tables))) none
      if h : 1 ≤ hostPort.toNat ∧ hostPort.toNat ≤ 65535 then
        protocolSpecificFields {
          id, name, protocol, hostPort := hostPort.toNat, bindAddress, path, primary, openInBrowser
          healthPath, hostPort_range := h }
      else none
  | _ => none

/-! ### Accepted ports -/

/-- A port that the validators have left. -/
structure PortAccepted (tables : CaseTables) (port : PortDefinition) : Prop where
  id : portId port.id = true
  name : lengthBetween 1 100 port.name = true
  bindAddress : validateBindAddress port.bindAddress = some port.bindAddress
  path : ∀ path, port.path = some path → validateWebPath tables path = true
  healthPath : ∀ path, port.healthPath = some path → validateWebPath tables path = true
  web : port.protocol.isWeb = true → port.path ≠ none
  socket : port.protocol.isWeb = false → port.path = none ∧ port.healthPath = none ∧
    port.primary = false ∧ port.openInBrowser = false

/-- An address is written in its canonical form. -/
theorem validateBindAddress_str {value canonical : String}
    (h : validateBindAddress value = some canonical) :
    validateBindAddress canonical = some canonical := by
  obtain ⟨address, -, rfl⟩ := Option.map_eq_some_iff.mp h
  rw [validateBindAddress, IpAddress.ipAddress_str]
  rfl

theorem validateWebPath_root (tables : CaseTables) : validateWebPath tables "/" = true := rfl

theorem protocolSpecificFields_accepted {tables : CaseTables} {port port' : PortDefinition}
    (h : protocolSpecificFields port = some port') (hid : portId port.id = true)
    (hname : lengthBetween 1 100 port.name = true)
    (haddress : validateBindAddress port.bindAddress = some port.bindAddress)
    (hpath : ∀ path, port.path = some path → validateWebPath tables path = true)
    (hhealth : ∀ path, port.healthPath = some path → validateWebPath tables path = true) :
    PortAccepted tables port' := by
  rw [protocolSpecificFields] at h
  split_ifs at h with hsocket hroot
  · rw [Bool.and_eq_true] at hroot
    cases h
    refine ⟨hid, hname, haddress, ?_, hhealth, fun _ => Option.some_ne_none _, fun hno => ?_⟩
    · intro path hsome
      rw [← Option.some.inj hsome]
      exact validateWebPath_root tables
    · rw [hroot.1] at hno
      cases hno
  · cases h
    refine ⟨hid, hname, haddress, hpath, hhealth, fun hweb hnone => hroot ?_, fun hno => ?_⟩
    · rw [hweb, hnone]
      rfl
    · rw [hno, Bool.not_false, Bool.true_and, Bool.not_eq_true, Bool.or_eq_false_iff,
        Bool.or_eq_false_iff, Bool.or_eq_false_iff, Option.isSome_eq_false_iff,
        Option.isSome_eq_false_iff, Option.isNone_iff_eq_none, Option.isNone_iff_eq_none,
        and_assoc, and_assoc] at hsocket
      exact hsocket

/-- **What is accepted has passed every validator**, the default path included. -/
theorem validatePort_accepted {lax : LaxMode} {tables : CaseTables} {raw : Json}
    {port : PortDefinition} (h : validatePort lax tables raw = some port) :
    PortAccepted tables port := by
  have hpath {members : List (String × Json)} {name : String} {path : Option String}
      (h : optional members name (nullable (lax.text (validateWebPath tables))) none = some path) :
      ∀ text, path = some text → validateWebPath tables text = true := by
    refine optional_accepted
      (P := fun path => ∀ text, path = some text → validateWebPath tables text = true) h
      (fun text hnone => by cases hnone) fun value hvalue text htext => ?_
    rw [htext] at hvalue
    exact nullable_accepted (P := fun text => validateWebPath tables text = true) hvalue
      fun given => LaxMode.text_accepted
  cases raw with
  | obj members =>
    rw [validatePort] at h
    split_ifs at h with hfields
    obtain ⟨id, hid, h⟩ := Option.bind_eq_some_iff.mp h
    obtain ⟨name, hname, h⟩ := Option.bind_eq_some_iff.mp h
    obtain ⟨protocol, -, h⟩ := Option.bind_eq_some_iff.mp h
    obtain ⟨hostPort, -, h⟩ := Option.bind_eq_some_iff.mp h
    obtain ⟨bindAddress, haddress, h⟩ := Option.bind_eq_some_iff.mp h
    obtain ⟨path, hpathField, h⟩ := Option.bind_eq_some_iff.mp h
    obtain ⟨primary, -, h⟩ := Option.bind_eq_some_iff.mp h
    obtain ⟨openInBrowser, -, h⟩ := Option.bind_eq_some_iff.mp h
    obtain ⟨healthPath, hhealthField, h⟩ := Option.bind_eq_some_iff.mp h
    split_ifs at h with hrange
    refine protocolSpecificFields_accepted h ?_ ?_ ?_ (hpath hpathField) (hpath hhealthField)
    · exact required_accepted (P := fun id => portId id = true) hid
        fun value => LaxMode.text_accepted
    · exact required_accepted (P := fun name => lengthBetween 1 100 name = true) hname
        fun value => LaxMode.text_accepted
    · refine optional_accepted (P := fun address => validateBindAddress address = some address)
        haddress (by decide) fun value hvalue => ?_
      obtain ⟨given, -, hgiven⟩ := Option.bind_eq_some_iff.mp hvalue
      exact validateBindAddress_str hgiven
  | _ => cases h

/-! ### Ports written -/

def portMembers (port : PortDefinition) : List (String × Json) :=
  [("id", .str port.id), ("name", .str port.name), ("protocol", .str port.protocol.text),
    ("host_port", .int port.hostPort), ("bind_address", .str port.bindAddress),
    ("path", dumpNullable port.path), ("primary", .bool port.primary),
    ("open_in_browser", .bool port.openInBrowser), ("health_path", dumpNullable port.healthPath)]

/-- `model_dump(mode="json")` of a port. -/
def dumpPort (port : PortDefinition) : Json := .obj (portMembers port)

theorem readProtocol_text (protocol : PortProtocol) :
    readProtocol (.str protocol.text) = some protocol := by
  cases protocol <;> rfl

theorem protocolSpecificFields_of_accepted {tables : CaseTables} {port : PortDefinition}
    (h : PortAccepted tables port) : protocolSpecificFields port = some port := by
  rw [protocolSpecificFields]
  cases hweb : port.protocol.isWeb with
  | true =>
    have hpath : port.path.isNone = false :=
      Bool.eq_false_iff.mpr fun hnone => h.web hweb (Option.isNone_iff_eq_none.mp hnone)
    rw [hpath]
    rfl
  | false =>
    obtain ⟨hpath, hhealth, hprimary, hopen⟩ := h.socket hweb
    rw [hpath, hhealth, hprimary, hopen]
    rfl

/-- **A port that has been accepted is accepted as it was written.** -/
theorem validatePort_dump (lax : LaxMode) {tables : CaseTables} {port : PortDefinition}
    (h : PortAccepted tables port) : validatePort lax tables (dumpPort port) = some port := by
  have hpath : ∀ path, (∀ text, path = some text → validateWebPath tables text = true) →
      nullable (lax.text (validateWebPath tables)) (dumpNullable path) = some path :=
    fun path hpath => nullable_dump fun text htext => lax.text_str (hpath text htext)
  have hguard : (!onlyFields portFields (portMembers port) ||
      ((member? (portMembers port) "host_port").isSome &&
        (member? (portMembers port) "host").isSome)) = false := rfl
  have hid : member? (portMembers port) "id" = some (.str port.id) := rfl
  have hname : member? (portMembers port) "name" = some (.str port.name) := rfl
  have hprotocol : member? (portMembers port) "protocol" = some (.str port.protocol.text) := rfl
  have hhost : (member? (portMembers port) "host_port" <|> member? (portMembers port) "host") =
    some (.int port.hostPort) := rfl
  have haddress : member? (portMembers port) "bind_address" = some (.str port.bindAddress) := rfl
  have hpathField : member? (portMembers port) "path" = some (dumpNullable port.path) := rfl
  have hprimary : member? (portMembers port) "primary" = some (.bool port.primary) := rfl
  have hopen : member? (portMembers port) "open_in_browser" = some (.bool port.openInBrowser) := rfl
  have hhealth : member? (portMembers port) "health_path" =
    some (dumpNullable port.healthPath) := rfl
  rw [dumpPort, validatePort, hguard, if_neg Bool.false_ne_true, required_of_member hid,
    required_of_member hname, optional_of_member hprotocol, hhost, optional_of_member haddress,
    optional_of_member hpathField, optional_of_member hprimary, optional_of_member hopen,
    optional_of_member hhealth, lax.text_str h.id, lax.text_str h.name, readProtocol_text,
    lax.bool_bool, lax.bool_bool, hpath port.path h.path, hpath port.healthPath h.healthPath]
  show ((lax.int (.int port.hostPort)).bind fun hostPort =>
    ((lax.str (.str port.bindAddress)).bind validateBindAddress).bind _) = _
  rw [lax.int_int, lax.str_str, Option.bind_some, Option.bind_some, h.bindAddress, Option.bind_some]
  -- the number comes back from the integer that was written
  exact (dif_pos port.hostPort_range).trans (protocolSpecificFields_of_accepted h)

end MachineDeck

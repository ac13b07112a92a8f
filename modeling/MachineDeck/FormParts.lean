import MachineDeck.ApplicationForm
import MachineDeck.Traversals
import MachineDeck.UrlAuthority

/-!
# The parts of a form that is saved as it was opened

What the environment and the ports of a manifest come back as.

* `trim_front`, `trim_of_bindAddress` — trimmed texts;
* `parseEnvironment_open` — the environment without the white space at the ends of its values;
* `PortKept`, `validatePort_payload`, `collectPorts_iff` — the ports, which lose their health path.
-/

namespace MachineDeck.Frontend

open JsonText (Json member?)
open LineText (partitionChars stripBy)
open ScriptText (isWhite mem_splitLines splitCommas splitCommas_join splitLines splitLines_join trim
  trimmed trimmed_of_plain)
open Systemd (assign)

/-! ### Texts without white space -/

theorem trimText_plain {text : String} (h : ∀ c ∈ text.toList, isWhite c = false) :
    trimText text = text := by
  rw [trimText, trim, LineText.stripBy_of_plain h, String.ofList_toList]

theorem toList_trimText (text : String) : (trimText text).toList = trim text.toList :=
  String.toList_ofList

/-- Behind a text without white space, only the end is trimmed. -/
theorem trim_front {front : List Char} (hne : front ≠ []) (h : ∀ c ∈ front, isWhite c = false)
    (back : List Char) : trim (front ++ back) = front ++ back.rdropWhile isWhite := by
  have hfront : front.dropWhile isWhite = front := by
    rw [List.dropWhile_eq_self_iff]
    intro hlength
    rw [h _ (List.getElem_mem hlength)]
    decide
  rw [trim, LineText.stripBy_append (by rw [hfront]; exact hne), hfront]
  split_ifs with hnone
  · rw [LineText.stripBy_of_plain h, hnone, List.append_nil]
  · rfl

/-- A kind of ASCII characters has no white space in it when none of the ASCII characters is both. -/
theorem plain_of_ascii (kind : Char → Bool)
    (hkind : ∀ n < 128, kind (Char.ofNat n) = true → isWhite (Char.ofNat n) = false) {c : Char}
    (hc : c.toNat < 128) (h : kind c = true) : isWhite c = false := by
  have hvalue := hkind c.toNat hc
  rw [Char.ofNat_toNat] at hvalue
  exact hvalue h

theorem lowerOrDigit_plain {c : Char} (h : lowerOrDigit c = true) : isWhite c = false := by
  refine plain_of_ascii lowerOrDigit (by decide) ?_ h
  rw [lowerOrDigit, asciiDigit] at h
  simp only [Bool.or_eq_true, Bool.and_eq_true, decide_eq_true_eq] at h
  rcases h with ⟨-, h⟩ | ⟨-, h⟩
  · exact Nat.lt_of_le_of_lt h (by decide)
  · exact Nat.lt_of_le_of_lt h (by decide)

theorem environmentName_plain {name : String} (h : environmentName name = true) :
    name ≠ "" ∧ '=' ∉ name.toList ∧ '\n' ∉ name.toList ∧ ∀ c ∈ name.toList, isWhite c = false := by
  have hchar {c : Char} (h : (upperOrUnderscore c || asciiDigit c) = true) :
      c ≠ '=' ∧ c ≠ '\n' ∧ isWhite c = false := by
    have hascii : c.toNat < 128 := by
      rw [upperOrUnderscore, asciiDigit] at h
      simp only [Bool.or_eq_true, Bool.and_eq_true, decide_eq_true_eq, beq_iff_eq] at h
      rcases h with (⟨-, h⟩ | rfl) | ⟨-, h⟩
      · exact Nat.lt_of_le_of_lt h (by decide)
      · decide
      · exact Nat.lt_of_le_of_lt h (by decide)
    refine ⟨?_, ?_, plain_of_ascii (fun c => upperOrUnderscore c || asciiDigit c)
      (by decide) hascii h⟩
    · rintro rfl
      exact absurd h (by decide)
    · rintro rfl
      exact absurd h (by decide)
  rw [environmentName] at h
  split at h
  · cases h
  · rename_i c cs hname
    rw [Bool.and_eq_true, List.all_eq_true] at h
    have hall : ∀ d ∈ name.toList, d ≠ '=' ∧ d ≠ '\n' ∧ isWhite d = false := by
      rw [hname, List.forall_mem_cons]
      exact ⟨hchar (by rw [h.1]; rfl), fun d hd => hchar (h.2 d hd)⟩
    refine ⟨?_, fun hmem => (hall _ hmem).1 rfl, fun hmem => (hall _ hmem).2.1 rfl,
      fun d hd => (hall d hd).2.2⟩
    rintro rfl
    cases hname

theorem portId_plain {id : String} (h : portId id = true) :
    id ≠ "" ∧ ∀ c ∈ id.toList, isWhite c = false := by
  rw [portId] at h
  split at h
  · cases h
  · rename_i c cs hid
    rw [Bool.and_eq_true, List.all_eq_true] at h
    constructor
    · rintro rfl
      cases hid
    · rw [hid, List.forall_mem_cons]
      refine ⟨lowerOrDigit_plain h.1, fun d hd => ?_⟩
      rcases Bool.or_eq_true_iff.mp (h.2 d hd) with hd | hd
      · exact lowerOrDigit_plain hd
      · rw [eq_of_beq hd]
        decide

/-! ### Environments -/

/-- A text without the white space at its end. -/
def trimEnd (text : String) : String := String.ofList (text.toList.rdropWhile isWhite)

def entryLine (entry : String × String) : String := entry.1 ++ "=" ++ entry.2

def trimmedEntry (entry : String × String) : String × String := (entry.1, trimEnd entry.2)

theorem trim_entryLine {entry : String × String} (h : environmentName entry.1 = true) :
    trimText (entryLine entry) = entryLine (trimmedEntry entry) := by
  obtain ⟨hne, -, -, hplain⟩ := environmentName_plain h
  have hall : ∀ c ∈ entry.1.toList ++ ['='], isWhite c = false := by
    intro c hc
    rcases List.mem_append.mp hc with hc | hc
    · exact hplain c hc
    · rw [List.mem_singleton.mp hc]
      decide
  rw [trimText, entryLine, entryLine, trimmedEntry, trimEnd]
  apply String.toList_injective
  simp only [String.toList_ofList, String.toList_append]
  exact trim_front (by simp) hall entry.2.toList

theorem parseEntry_line {entry : String × String} (h : environmentName entry.1 = true) :
    parseEntry (entryLine entry) = .ok entry := by
  obtain ⟨hne, hequals, -, hplain⟩ := environmentName_plain h
  have hparts : partitionChars '=' (entryLine entry).toList =
      (entry.1.toList, some entry.2.toList) := by
    rw [entryLine, String.toList_append, String.toList_append, List.append_assoc]
    exact LineText.partitionChars_append entry.1.toList entry.2.toList hequals
  rw [parseEntry, hparts]
  cases hname : entry.1.toList with
  | nil => exact absurd (String.toList_injective (hname.trans rfl)) hne
  | cons c name =>
      simp only
      rw [← hname, String.ofList_toList, String.ofList_toList, trimText_plain hplain]

theorem lookup_none {entries : List (String × String)} {name : String}
    (h : name ∉ entries.map Prod.fst) : entries.lookup name = none := by
  rw [List.lookup_eq_none_iff]
  intro entry hentry
  rw [bne_iff_ne]
  rintro rfl
  exact h (List.mem_map_of_mem hentry)

/-- The entries are read in their order. -/
theorem foldlM_entries {entries : List (String × String)}
    (hnames : ∀ entry ∈ entries, environmentName entry.1 = true)
    (read : List (String × String)) (hdistinct : ((read ++ entries).map Prod.fst).Nodup) :
    (entries.map entryLine).foldlM
      (fun environment line => do
        let (name, value) ← parseEntry line
        return assign environment name value) read = .ok (read ++ entries) := by
  induction entries generalizing read with
  | nil => rw [List.map_nil, List.foldlM_nil, List.append_nil]; rfl
  | cons entry entries ih =>
      obtain ⟨hname, hnames⟩ := List.forall_mem_cons.mp hnames
      have hnew : entry.1 ∉ read.map Prod.fst := by
        rw [List.map_append, List.map_cons] at hdistinct
        exact fun hmem => (List.disjoint_of_nodup_append hdistinct) hmem List.mem_cons_self
      have hassign : assign read entry.1 entry.2 = read ++ [entry] := by
        rw [assign, lookup_none hnew]
        rfl
      rw [List.map_cons, List.foldlM_cons, parseEntry_line hname]
      show (entries.map entryLine).foldlM _ (assign read entry.1 entry.2) = _
      rw [hassign, ih hnames _ (by simpa using hdistinct), List.append_assoc, List.singleton_append]

/-- The lines of a text that is joined from such lines. -/
theorem lines_join {items : List String} (h : ∀ item ∈ items, '\n' ∉ item.toList) :
    lines ("\n".intercalate items) =
      (trimmed (items.map String.toList)).map String.ofList := by
  have hfeed : "\n".toList = ['\n'] := rfl
  rw [lines, String.toList_intercalate, hfeed, splitLines_join]
  intro line hline
  obtain ⟨item, hitem, rfl⟩ := List.mem_map.mp hline
  exact h item hitem

theorem entryLine_feedless {environment : Environment} {entry : String × String}
    (h : entry ∈ environment.entries) : '\n' ∉ (entryLine entry).toList := by
  obtain ⟨-, -, hname, -⟩ := environmentName_plain (environment.validNames entry h)
  have hvalue : '\n' ∉ entry.2.toList := by
    intro hmem
    exact absurd (List.all_eq_true.mp (environment.safeValues entry h) '\n' hmem) (by decide)
  rw [entryLine, String.toList_append, String.toList_append]
  intro hmem
  rcases List.mem_append.mp hmem with hmem | hmem
  · rcases List.mem_append.mp hmem with hmem | hmem
    · exact hname hmem
    · exact absurd hmem (by decide)
  · exact hvalue hmem

theorem lines_entries (environment : Environment) :
    lines ("\n".intercalate (environment.entries.map entryLine)) =
      (environment.entries.map trimmedEntry).map entryLine := by
  have hfeedless : ∀ item ∈ environment.entries.map entryLine, '\n' ∉ item.toList := by
    intro item hitem
    obtain ⟨entry, hentry, rfl⟩ := List.mem_map.mp hitem
    exact entryLine_feedless hentry
  have htrim : ((environment.entries.map entryLine).map String.toList).map trim =
      ((environment.entries.map trimmedEntry).map entryLine).map String.toList := by
    simp only [List.map_map]
    refine List.map_congr_left fun entry hentry => ?_
    show trim (entryLine entry).toList = (entryLine (trimmedEntry entry)).toList
    rw [← toList_trimText, trim_entryLine (environment.validNames entry hentry)]
  have hne : ∀ piece ∈ ((environment.entries.map trimmedEntry).map entryLine).map String.toList,
      decide (piece ≠ []) = true := by
    intro piece hpiece
    obtain ⟨line, hline, rfl⟩ := List.mem_map.mp hpiece
    obtain ⟨entry, -, rfl⟩ := List.mem_map.mp hline
    rw [entryLine, String.toList_append, String.toList_append]
    simp
  rw [lines_join hfeedless, trimmed, htrim, List.filter_eq_self.mpr hne, List.map_map]
  simp

/-- The environment comes back without the white space at the ends of its values. -/
theorem parseEnvironment_open (environment : Environment) :
    parseEnvironment ("\n".intercalate (environment.entries.map entryLine)) =
      .ok (environment.entries.map trimmedEntry) := by
  have hfst : (environment.entries.map trimmedEntry).map Prod.fst =
      environment.entries.map Prod.fst := by
    rw [List.map_map]
    rfl
  have hnames : ∀ entry ∈ environment.entries.map trimmedEntry, environmentName entry.1 = true := by
    intro entry hentry
    obtain ⟨given, hgiven, rfl⟩ := List.mem_map.mp hentry
    exact environment.validNames given hgiven
  rw [parseEnvironment, lines_entries]
  refine foldlM_entries hnames [] ?_
  rw [List.nil_append, hfst]
  exact environment.distinct

/-! ### Ports -/

theorem v6Char_plain {c : Char} (h : UrlSplit.v6Char c = true) : isWhite c = false :=
  plain_of_ascii UrlSplit.v6Char (by decide) (UrlSplit.host_ascii (Or.inr h)) h

/-- An address that is read from the trimmed text is the text itself. -/
theorem trim_of_bindAddress {value : String}
    (h : Ports.validateBindAddress (trimText value) = some value) : trimText value = value := by
  obtain ⟨address, haddress, hstr⟩ := Option.map_eq_some_iff.mp h
  have hchars : value.toList = address.chars := by
    rw [← hstr, IpAddress.Address.str, String.toList_ofList]
  cases address with
  | v4 number =>
      refine trimText_plain fun c hc => ?_
      rw [hchars] at hc
      rcases (IpAddress.readV4_some (IpAddress.readV4_textV4 number.isLt)).1 c hc with hdigit | rfl
      · have hvalue : 48 ≤ c.toNat ∧ c.toNat ≤ 57 := by
          simpa [Char.isDigit, UInt32.le_iff_toNat_le] using hdigit
        exact plain_of_ascii Char.isDigit (by decide) (by omega) hdigit
      · decide
  | v6 number zone =>
      have hgroups : ∀ c ∈ IpAddress.textGroups (IpAddress.groupsOf number), isWhite c = false :=
        fun c hc => v6Char_plain (UrlSplit.textGroups_chars number c hc)
      cases zone with
      | none =>
          refine trimText_plain fun c hc => ?_
          rw [hchars] at hc
          exact hgroups c hc
      | some zone =>
          -- the zone is read to its end, so it does not end with white space
          have hfront : ∀ c ∈ IpAddress.textGroups (IpAddress.groupsOf number) ++ ['%'],
              isWhite c = false := by
            intro c hc
            rcases List.mem_append.mp hc with hc | hc
            · exact hgroups c hc
            · rw [List.mem_singleton.mp hc]
              decide
          have hsplit : value.toList = (IpAddress.textGroups (IpAddress.groupsOf number) ++ ['%']) ++
              zone.text := by
            rw [hchars, List.append_assoc]
            rfl
          have htrim := trim_front (by simp) hfront zone.text
          rw [← hsplit, ← toList_trimText] at htrim
          apply String.toList_injective
          rw [htrim, hsplit]
          rw [IpAddress.ipAddress, htrim, List.append_assoc, List.singleton_append,
            IpAddress.readAddress, IpAddress.readV4_colon (List.mem_append_left _
              (IpAddress.colon_mem_textGroups number)),
            IpAddress.splitZone_zone (IpAddress.textGroups_plain number)] at haddress
          obtain ⟨read, hread, haddress⟩ := Option.bind_eq_some_iff.mp haddress
          obtain ⟨found, -, haddress⟩ := Option.bind_eq_some_iff.mp haddress
          rw [IpAddress.readZone] at hread
          split_ifs at hread with hzone
          cases hread
          simp only [Option.pure_def, Option.some.injEq, IpAddress.Address.v6.injEq] at haddress
          have htext : zone.text.rdropWhile isWhite = zone.text :=
            congrArg IpAddress.Zone.text haddress.2
          rw [htext]

/-- The port comes back as it was. -/
structure PortKept (port : PortDefinition) : Prop where
  name : trimText port.name = port.name
  bindAddress : trimText port.bindAddress = port.bindAddress
  path : ∀ path, port.path = some path → trimText path = path
  healthPath : port.healthPath = none

def portPayload (port : PortDefinition) : List (String × Json) :=
  [("id", .str port.id), ("name", .str (trimText port.name)),
    ("protocol", .str port.protocol.text), ("host_port", .int port.hostPort),
    ("bind_address", .str (trimText port.bindAddress)), ("primary", .bool port.primary),
    ("open_in_browser", .bool port.openInBrowser)] ++
  if port.protocol.isWeb then [("path", .str (trimText (port.path.getD "")))] else []

section Ports

variable {tables : UrlSplit.CaseTables} {port : PortDefinition}

theorem webProtocol_text (protocol : PortProtocol) :
    webProtocol protocol.text = protocol.isWeb := by
  cases protocol <;> decide

theorem trimText_ne {text : String} {c : Char} (hc : isWhite c = false) (h : c ∈ text.toList) :
    trimText text ≠ "" := by
  intro hnone
  have hmem : c ∈ trim text.toList := (LineText.mem_stripBy hc).mpr h
  rw [← toList_trimText, hnone] at hmem
  cases hmem

theorem path_slash {path : String} (h : validateWebPath tables path = true) :
    '/' ∈ path.toList := by
  rw [validateWebPath, Bool.and_eq_true] at h
  exact List.mem_of_head? (eq_of_beq h.1)

/-- What a row of an accepted port gives. -/
theorem collectPort_open (numbers : Numbers) (h : PortAccepted tables port) (index : ℕ) :
    collectPort numbers (addPortRow port) index =
      if trimText port.name = "" ∨ trimText port.bindAddress = "" then
        .error s!"Port {index + 1} is incomplete."
      else .ok (.obj (portPayload port)) := by
  obtain ⟨hidne, hid⟩ := portId_plain h.id
  have haddress : port.bindAddress ≠ "" := by
    intro hnone
    have hread := h.bindAddress
    rw [hnone] at hread
    exact absurd hread (by decide)
  have hnumber : falsyNumber (.int port.hostPort) = false := by
    have hrange := port.hostPort_range.1
    show ((port.hostPort : ℤ) == 0) = false
    rw [beq_eq_false_iff_ne]
    omega
  have hpath : webProtocol port.protocol.text = true → trimText (port.path.getD "") ≠ "" := by
    rw [webProtocol_text]
    intro hweb
    obtain ⟨path, hpath⟩ := Option.ne_none_iff_exists'.mp (h.web hweb)
    rw [hpath, Option.getD_some]
    exact trimText_ne (by decide) (path_slash (h.path path hpath))
  rw [collectPort]
  simp only [addPortRow, if_neg haddress, numbers.digits, hnumber, trimText_plain hid, hidne,
    false_or, Bool.false_eq_true, webProtocol_text]
  refine if_congr Iff.rfl rfl (congrArg (fun members => Except.ok (Json.obj members)) ?_)
  rw [portPayload]
  cases hweb : port.protocol.isWeb with
  | true =>
      have hweb' : webProtocol port.protocol.text = true := by rw [webProtocol_text, hweb]
      rw [if_pos ⟨hpath hweb', rfl⟩]
      rfl
  | false =>
      obtain ⟨-, -, hprimary, hopen⟩ := h.socket hweb
      rw [if_neg (by simp), hprimary, hopen]
      rfl

/-- The members of a payload, with the path for Web protocols only. -/
theorem payload_members (port : PortDefinition) :
    member? (portPayload port) "id" = some (.str port.id) ∧
    member? (portPayload port) "name" = some (.str (trimText port.name)) ∧
    member? (portPayload port) "protocol" = some (.str port.protocol.text) ∧
    (member? (portPayload port) "host_port" <|> member? (portPayload port) "host") =
      some (.int port.hostPort) ∧
    member? (portPayload port) "bind_address" = some (.str (trimText port.bindAddress)) ∧
    member? (portPayload port) "path" =
      (if port.protocol.isWeb then some (.str (trimText (port.path.getD ""))) else none) ∧
    member? (portPayload port) "primary" = some (.bool port.primary) ∧
    member? (portPayload port) "open_in_browser" = some (.bool port.openInBrowser) ∧
    member? (portPayload port) "health_path" = none ∧
    (!onlyFields portFields (portPayload port) ||
      ((member? (portPayload port) "host_port").isSome &&
        (member? (portPayload port) "host").isSome)) = false := by
  rw [portPayload]
  cases port.protocol.isWeb with
  | true => exact ⟨rfl, rfl, rfl, rfl, rfl, rfl, rfl, rfl, rfl, rfl⟩
  | false => exact ⟨rfl, rfl, rfl, rfl, rfl, rfl, rfl, rfl, rfl, rfl⟩

theorem text_given {lax : LaxMode} {accepts : String → Bool} {given text : String}
    (h : lax.text accepts (.str given) = some text) : text = given := by
  rw [LaxMode.text, lax.str_str, Option.bind_some] at h
  exact (checked_eq_some.mp h).1.symm

/-- The last validator changes nothing but an absent path. -/
theorem protocolSpecificFields_eq {given read : PortDefinition}
    (h : protocolSpecificFields given = some read) :
    read = given ∨ given.path = none ∧ read = { given with path := some "/" } := by
  rw [protocolSpecificFields] at h
  split_ifs at h with hsocket hroot
  · rw [Bool.and_eq_true] at hroot
    cases h
    exact Or.inr ⟨Option.isNone_iff_eq_none.mp hroot.2, rfl⟩
  · cases h
    exact Or.inl rfl

theorem validatePort_payload (lax : LaxMode) (h : PortAccepted tables port) :
    validatePort lax tables (.obj (portPayload port)) = some port ↔ PortKept port := by
  obtain ⟨hid, hname, hprotocol, hhost, haddress, hpath, hprimary, hopen, hhealth, hguard⟩ :=
    payload_members port
  have hpathRead (path : Option String) :
      optional (portPayload port) "path" (nullable (lax.text (validateWebPath tables))) none =
        some path → path = port.path.map fun _ => trimText (port.path.getD "") := by
    intro hread
    cases hweb : port.protocol.isWeb with
    | true =>
        rw [hweb, if_pos rfl] at hpath
        obtain ⟨given, hgiven⟩ := Option.ne_none_iff_exists'.mp (h.web hweb)
        rw [optional_of_member hpath] at hread
        obtain ⟨text, htext, rfl⟩ := Option.map_eq_some_iff.mp hread
        rw [text_given htext, hgiven]
        rfl
    | false =>
        rw [hweb, if_neg Bool.false_ne_true] at hpath
        rw [optional, hpath] at hread
        rw [(h.socket hweb).1, ← Option.some.inj hread]
        rfl
  constructor
  · intro hread
    rw [validatePort, hguard, if_neg Bool.false_ne_true] at hread
    obtain ⟨readId, -, hread⟩ := Option.bind_eq_some_iff.mp hread
    obtain ⟨name, hname', hread⟩ := Option.bind_eq_some_iff.mp hread
    obtain ⟨protocol, -, hread⟩ := Option.bind_eq_some_iff.mp hread
    obtain ⟨hostPort, -, hread⟩ := Option.bind_eq_some_iff.mp hread
    obtain ⟨address, haddress', hread⟩ := Option.bind_eq_some_iff.mp hread
    obtain ⟨path, hpath', hread⟩ := Option.bind_eq_some_iff.mp hread
    obtain ⟨primary, -, hread⟩ := Option.bind_eq_some_iff.mp hread
    obtain ⟨openInBrowser, -, hread⟩ := Option.bind_eq_some_iff.mp hread
    obtain ⟨health, hhealth', hread⟩ := Option.bind_eq_some_iff.mp hread
    split_ifs at hread with hrange
    rw [required_of_member hname] at hname'
    rw [optional_of_member haddress, lax.str_str, Option.bind_some] at haddress'
    rw [optional, hhealth] at hhealth'
    have hpath'' := hpathRead path hpath'
    have hfields : port.name = name ∧ port.bindAddress = address ∧ port.healthPath = health ∧
        (port.path = path ∨ path = none) := by
      rcases protocolSpecificFields_eq hread with hsame | ⟨hnone, hsame⟩
      · exact ⟨congrArg PortDefinition.name hsame, congrArg PortDefinition.bindAddress hsame,
          congrArg PortDefinition.healthPath hsame, Or.inl (congrArg PortDefinition.path hsame)⟩
      · exact ⟨congrArg PortDefinition.name hsame, congrArg PortDefinition.bindAddress hsame,
          congrArg PortDefinition.healthPath hsame, Or.inr hnone⟩
    obtain ⟨hsameName, hsameAddress, hsameHealth, hsamePath⟩ := hfields
    refine ⟨?_, ?_, ?_, ?_⟩
    · rw [← text_given hname', hsameName]
    · rw [← hsameAddress] at haddress'
      exact trim_of_bindAddress haddress'
    · intro given hgiven
      rw [hgiven, Option.map_some, Option.getD_some] at hpath''
      rcases hsamePath with hsame | hnone
      · rw [hgiven, hpath''] at hsame
        exact (Option.some.inj hsame).symm
      · rw [hpath''] at hnone
        cases hnone
    · rw [hsameHealth]
      exact (Option.some.inj hhealth').symm
  · intro hkept
    have hpath' : optional (portPayload port) "path" (nullable (lax.text (validateWebPath tables)))
        none = some port.path := by
      cases hweb : port.protocol.isWeb with
      | true =>
          obtain ⟨given, hgiven⟩ := Option.ne_none_iff_exists'.mp (h.web hweb)
          rw [hweb, if_pos rfl, hgiven, Option.getD_some, hkept.path given hgiven] at hpath
          rw [optional_of_member hpath, hgiven]
          exact congrArg (Option.map some) (lax.text_str (h.path given hgiven))
      | false =>
          rw [hweb, if_neg Bool.false_ne_true] at hpath
          rw [optional, hpath, (h.socket hweb).1]
    have hhealth' : optional (portPayload port) "health_path"
        (nullable (lax.text (validateWebPath tables))) none = some port.healthPath := by
      rw [optional, hhealth, hkept.healthPath]
    rw [hkept.name] at hname
    rw [hkept.bindAddress] at haddress
    rw [validatePort, hguard, if_neg Bool.false_ne_true, required_of_member hid,
      required_of_member hname, optional_of_member hprotocol, hhost, optional_of_member haddress,
      optional_of_member hprimary, optional_of_member hopen, lax.text_str h.id,
      lax.text_str h.name, readProtocol_text, lax.bool_bool, lax.bool_bool, hpath', hhealth']
    show ((lax.int (.int port.hostPort)).bind fun hostPort =>
      ((lax.str (.str port.bindAddress)).bind Ports.validateBindAddress).bind _) = _
    rw [lax.int_int, lax.str_str, Option.bind_some, Option.bind_some, h.bindAddress,
      Option.bind_some]
    exact (dif_pos port.hostPort_range).trans (protocolSpecificFields_of_accepted h)

theorem collectPorts_ok (numbers : Numbers) {ports : List PortDefinition}
    (haccepted : ∀ port ∈ ports, PortAccepted tables port) {payloads : List Json} (start : ℕ)
    (h : ((ports.map addPortRow).zipIdx start).mapM
      (fun row => collectPort numbers row.1 row.2) = .ok payloads) :
    payloads = ports.map fun port => .obj (portPayload port) := by
  induction ports generalizing payloads start with
  | nil => cases h; rfl
  | cons port ports ih =>
      obtain ⟨hport, hports⟩ := List.forall_mem_cons.mp haccepted
      rw [List.map_cons, List.zipIdx_cons, List.mapM_cons] at h
      obtain ⟨payload, hpayload, h⟩ := Traversals.bind_ok h
      obtain ⟨others, hothers, h⟩ := Traversals.bind_ok h
      cases h
      simp only [collectPort_open numbers hport] at hpayload
      split_ifs at hpayload
      cases hpayload
      rw [List.map_cons, ih hports (start + 1) hothers]

theorem collectPorts_kept (numbers : Numbers) {ports : List PortDefinition}
    (haccepted : ∀ port ∈ ports, PortAccepted tables port) (hkept : ∀ port ∈ ports, PortKept port)
    (start : ℕ) : ((ports.map addPortRow).zipIdx start).mapM
      (fun row => collectPort numbers row.1 row.2) =
        .ok (ports.map fun port => .obj (portPayload port)) := by
  induction ports generalizing start with
  | nil => rfl
  | cons port ports ih =>
      obtain ⟨hport, hports⟩ := List.forall_mem_cons.mp haccepted
      obtain ⟨hkeptPort, hkeptPorts⟩ := List.forall_mem_cons.mp hkept
      have hname : port.name ≠ "" := by
        intro hnone
        have hlength := hport.name
        rw [hnone] at hlength
        exact absurd hlength (by decide)
      have haddress : port.bindAddress ≠ "" := by
        intro hnone
        have hread := hport.bindAddress
        rw [hnone] at hread
        exact absurd hread (by decide)
      have hcollect : collectPort numbers (addPortRow port) start =
          .ok (.obj (portPayload port)) := by
        rw [collectPort_open numbers hport, hkeptPort.name, hkeptPort.bindAddress,
          if_neg (by simp [hname, haddress])]
      rw [List.map_cons, List.zipIdx_cons, List.mapM_cons, hcollect, ih hports hkeptPorts]
      rfl

theorem mapM_map_self {α : Type*} {write : α → Json} {read : Json → Option α} {items : List α}
    (h : (items.map write).mapM read = some items) : ∀ item ∈ items, read (write item) = some item := by
  induction items with
  | nil => simp
  | cons item items ih =>
      rw [List.map_cons, List.mapM_cons] at h
      obtain ⟨first, hfirst, h⟩ := Option.bind_eq_some_iff.mp h
      obtain ⟨others, hothers, h⟩ := Option.bind_eq_some_iff.mp h
      simp only [Option.pure_def, Option.some.injEq, List.cons.injEq] at h
      rw [List.forall_mem_cons]
      exact ⟨by rw [hfirst, h.1], ih (by rw [hothers, h.2])⟩

/-- The ports come back exactly when each of them does. -/
theorem collectPorts_iff (numbers : Numbers) {host : SchemaHost} {ports : List PortDefinition}
    (haccepted : ∀ port ∈ ports, PortAccepted host.tables port) (hbounded : ports.length ≤ 64) :
    (∃ payloads, collectPorts numbers (ports.map addPortRow) = .ok payloads ∧
      validatePorts host (.arr payloads) = some ports) ↔ ∀ port ∈ ports, PortKept port := by
  constructor
  · rintro ⟨payloads, hpayloads, hread⟩
    rw [collectPorts_ok numbers haccepted 0 hpayloads] at hread
    obtain ⟨given, hgiven, hchecked⟩ := Option.bind_eq_some_iff.mp hread
    obtain ⟨rfl, -⟩ := checked_eq_some.mp hchecked
    exact fun port hport => (validatePort_payload host.lax (haccepted port hport)).mp
      (mapM_map_self hgiven port hport)
  · intro hkept
    refine ⟨_, collectPorts_kept numbers haccepted hkept 0, ?_⟩
    rw [validatePorts, listOf_dump fun port hport =>
      (validatePort_payload host.lax (haccepted port hport)).mpr (hkept port hport)]
    exact checked_eq_some.mpr ⟨rfl, decide_eq_true hbounded⟩

end Ports

end MachineDeck.Frontend

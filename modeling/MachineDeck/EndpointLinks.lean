import MachineDeck.PortSchema
import MachineDeck.PortViews
import MachineDeck.UrlAuthority

/-!
# The links of an application's ports

What `endpoint_url` writes for a port that the schema has accepted.

* `LinkHost` — a dotted IPv4 address, an IPv6 address in brackets or a DNS name;
* `urlSafe` — the characters behind the host and the port;
* `WellFormedUrl` — a link of these parts, which a URL parser takes apart as it was put together;
* `authority`, `Zoned` — the text whose host the link gets, with a zone that goes into it;
* `endpointUrl_wellFormed_iff` — a link is well formed unless its host has a zone.
-/

namespace MachineDeck.Ports

open IpAddress UrlQuery UrlSplit

/-! ### Hosts -/

/-- A host of a link, and the name or address that is meant. -/
inductive LinkHost : List Char → List Char → Prop
  | v4 (value : Fin (2 ^ 32)) : LinkHost (textV4 value) (textV4 value)
  | v6 {host : List Char} {value : Fin (2 ^ 128)} (hchars : ∀ c ∈ host, v6Char c = true)
      (hread : readAddress host = some (.v6 value none)) : LinkHost ('[' :: host ++ [']']) host
  | name {labels : List (List Char)} (hlabels : ∀ label ∈ labels, hostLabel label = true)
      (hlength : 1 ≤ (['.'].intercalate labels).length ∧ (['.'].intercalate labels).length ≤ 253) :
      LinkHost (['.'].intercalate labels) (['.'].intercalate labels)

theorem textV4_host (value : Fin (2 ^ 32)) : ∀ c ∈ textV4 value, hostChar c = true := by
  intro c hc
  cases (readV4_some (readV4_textV4 value.isLt)).1 c hc with
  | inl hdigit => exact digit_hostChar hdigit
  | inr hdot => rw [hdot]; decide

theorem hostLabel_chars {label : List Char} (h : hostLabel label = true) :
    ∀ c ∈ label, (asciiAlnum c || c == '-') = true := by
  simp only [hostLabel, Bool.and_eq_true] at h
  exact List.all_eq_true.mp h.1.1.2

theorem LinkHost.hostText {host bare : List Char} (h : LinkHost host bare) : HostText host bare := by
  cases h with
  | v4 value => exact .plain (textV4_host value)
  | v6 hchars hread => exact .bracketed hchars hread
  | name hlabels hlength =>
    refine .plain fun c hc => ?_
    cases LineText.mem_intercalate_list hc with
    | inl hdot =>
      rw [List.mem_singleton.mp hdot]
      decide
    | inr hlabel =>
      obtain ⟨label, hmem, hc⟩ := hlabel
      have halnum := hostLabel_chars (hlabels label hmem) c hc
      rw [hostChar]
      rw [asciiAlnum] at halnum
      rw [Char.isAlphanum, halnum, Bool.true_or]

/-! ### The lower case of a name -/

set_option maxRecDepth 4000 in
theorem toLower_ascii : ∀ n < 0x80, asciiAlnum (Char.ofNat n).toLower = asciiAlnum (Char.ofNat n) ∧
    ((Char.ofNat n).toLower == '-') = (Char.ofNat n == '-') := by decide

theorem hostLabel_lower {label : List Char} (h : hostLabel label = true) :
    hostLabel (label.map Char.toLower) = true := by
  have hlower : ∀ c ∈ label, asciiAlnum c.toLower = asciiAlnum c ∧ (c.toLower == '-') = (c == '-') := by
    intro c hc
    have halnum := hostLabel_chars h c hc
    have hhost : hostChar c = true := by
      rw [hostChar, Char.isAlphanum]
      rw [asciiAlnum] at halnum
      rw [halnum, Bool.true_or]
    have hascii := toLower_ascii c.toNat (host_ascii (.inl hhost))
    rwa [Char.ofNat_toNat] at hascii
  have hend {c : Option Char} (hmem : ∀ d, c = some d → d ∈ label) (hc : c.any asciiAlnum = true) :
      (c.map Char.toLower).any asciiAlnum = true := by
    cases c with
    | none => cases hc
    | some d =>
      show asciiAlnum d.toLower = true
      rw [(hlower d (hmem d rfl)).1]
      exact hc
  simp only [hostLabel, Bool.and_eq_true] at h ⊢
  obtain ⟨⟨⟨hlength, hall⟩, hhead⟩, hlast⟩ := h
  refine ⟨⟨⟨?_, ?_⟩, ?_⟩, ?_⟩
  · rwa [List.length_map]
  · rw [List.all_eq_true] at hall ⊢
    intro d hd
    obtain ⟨c, hc, rfl⟩ := List.mem_map.mp hd
    rw [(hlower c hc).1, (hlower c hc).2]
    exact hall c hc
  · rw [List.head?_map]
    exact hend (fun d => List.mem_of_mem_head?) hhead
  · rw [List.getLast?_map]
    exact hend (fun d => List.mem_of_getLast?) hlast

theorem map_intercalate (f : Char → Char) (sep : List Char) (pieces : List (List Char)) :
    (sep.intercalate pieces).map f = (sep.map f).intercalate (pieces.map (List.map f)) := by
  induction pieces with
  | nil => rfl
  | cons piece pieces ih =>
    cases pieces with
    | nil => simp [List.intercalate]
    | cons next pieces =>
      rw [List.intercalate_cons_cons, List.map_append, List.map_append, ih]
      simp only [List.map_cons, List.intercalate_cons_cons]

/-! ### The host of a link -/

/-- A character that `_public_host` refuses. -/
def refused (value : String) : Bool := value.toList.any "/\\@#?\r\n".toList.contains

/-- An address with a zone that goes into the link. -/
def Zoned (value : String) (address : Fin (2 ^ 128)) (zone : Zone) : Prop :=
  refused value = false ∧ ipAddress value = some (.v6 address (some zone))

theorem publicHost_zoned {value : String} {address : Fin (2 ^ 128)} {zone : Zone}
    (h : Zoned value address zone) :
    publicHost (some value) = some (String.ofList
      ('[' :: textGroups (groupsOf address) ++ '%' :: (zone.text ++ [']']))) := by
  have hrefused : ¬ value.toList.any "/\\@#?\r\n".toList.contains = true :=
    Bool.eq_false_iff.mp h.1
  rw [publicHost, if_neg hrefused, h.2]
  show some ("[" ++ String.ofList _ ++ "]") = _
  rw [← String.ofList_toList (s := "[" ++ String.ofList _ ++ "]"), String.toList_append,
    String.toList_append, String.toList_ofList]
  simp [Address.chars]

theorem v6_linkHost (value : Fin (2 ^ 128)) :
    LinkHost ('[' :: textGroups (groupsOf value) ++ [']']) (textGroups (groupsOf value)) := by
  have hread := ipAddress_str (.v6 value none)
  rw [ipAddress, Address.str, String.toList_ofList] at hread
  exact .v6 (textGroups_chars value) hread

theorem publicHost_linkHost {value host : String} (h : publicHost (some value) = some host)
    (hzone : ∀ address zone, ¬ Zoned value address zone) :
    ∃ bare, LinkHost host.toList bare := by
  by_cases hrefused : value.toList.any "/\\@#?\r\n".toList.contains = true
  · rw [publicHost, if_pos hrefused] at h
    cases h
  · rw [publicHost, if_neg hrefused] at h
    cases haddress : ipAddress value with
    | some address =>
      rw [haddress] at h
      cases address with
      | v4 value =>
        refine ⟨textV4 value, ?_⟩
        have hhost : (Address.v4 value).str = host := Option.some.inj h
        rw [← hhost, Address.str, String.toList_ofList]
        exact .v4 value
      | v6 value zone =>
        cases zone with
        | some zone => exact absurd ⟨Bool.eq_false_iff.mpr hrefused, haddress⟩ (hzone value zone)
        | none =>
          refine ⟨textGroups (groupsOf value), ?_⟩
          have hhost : "[" ++ (Address.v6 value none).str ++ "]" = host := Option.some.inj h
          have htext : host.toList = '[' :: textGroups (groupsOf value) ++ [']'] := by
            rw [← hhost, String.toList_append, String.toList_append, Address.str, Address.chars]
            generalize textGroups (groupsOf value) = text
            rw [String.toList_ofList (l := text)]
            rfl
          rw [htext]
          exact v6_linkHost value
    | none =>
      rw [haddress] at h
      obtain ⟨⟨hleast, hmost, hlabels⟩, hlower⟩ := Option.ite_none_right_eq_some.mp h
      have hhost : String.ofList (value.toList.map Char.toLower) = host := Option.some.inj hlower
      -- the name in lower case, label by label
      have htext : value.toList.map Char.toLower =
          ['.'].intercalate ((value.toList.splitOn '.').map (List.map Char.toLower)) := by
        have hjoined := map_intercalate Char.toLower ['.'] (value.toList.splitOn '.')
        rw [List.intercalate_splitOn] at hjoined
        exact hjoined
      have hlength : (['.'].intercalate
          ((value.toList.splitOn '.').map (List.map Char.toLower))).length = value.length := by
        rw [← htext, List.length_map, String.length_toList]
      refine ⟨value.toList.map Char.toLower, ?_⟩
      rw [← hhost, String.toList_ofList, htext]
      refine .name (fun label hlabel => ?_) (by rw [hlength]; exact ⟨hleast, hmost⟩)
      obtain ⟨given, hgiven, rfl⟩ := List.mem_map.mp hlabel
      exact hostLabel_lower (List.all_eq_true.mp hlabels given hgiven)

/-! ### What is behind the host -/

def pathSafe (c : Char) : Bool := unreserved c || "/%:@!$&'()*+,;=".toList.contains c

/-- A character of a path or a query that stands for itself, or a sign of an encoding. -/
def urlSafe (c : Char) : Bool := pathSafe c || c == '?'

theorem pathSafe_ascii {c : Char} (h : pathSafe c = true) : c.toNat < 0x80 := by
  rw [pathSafe, Bool.or_eq_true] at h
  cases h with
  | inl h => exact unreserved_ascii h
  | inr h =>
    have hsigns : ∀ c ∈ "/%:@!$&'()*+,;=".toList, c.toNat < 0x80 :=
      List.all_iff_forall_prop.mp (by decide)
    exact hsigns c (List.contains_iff_mem.mp h)

set_option maxRecDepth 4000 in
theorem pathSafe_delimiters_ascii : ∀ n < 0x80, pathSafe (Char.ofNat n) = true →
    "?#\t\r\n".toList.contains (Char.ofNat n) = false := by decide

theorem pathSafe_delimiters {c : Char} (h : pathSafe c = true) :
    "?#\t\r\n".toList.contains c = false := by
  have hascii := pathSafe_delimiters_ascii c.toNat (pathSafe_ascii h)
  rw [Char.ofNat_toNat] at hascii
  exact hascii h

theorem quoteChar_safe (c : Char) :
    ∀ d ∈ quoteChar "/%:@-._~!$&'()*+,;=".toList c, pathSafe d = true := by
  intro d hd
  rw [quoteChar] at hd
  split_ifs at hd with hkept
  · rw [List.mem_singleton.mp hd, pathSafe, Bool.or_eq_true]
    rw [Bool.or_eq_true] at hkept
    cases hkept with
    | inl h => exact .inl h
    | inr h =>
      have hsafe : ∀ c ∈ "/%:@-._~!$&'()*+,;=".toList,
        unreserved c = true ∨ "/%:@!$&'()*+,;=".toList.contains c = true :=
          List.all_iff_forall_prop.mp (by decide)
      exact hsafe c (List.contains_iff_mem.mp h)
  · obtain ⟨b, -, hd⟩ := List.mem_flatMap.mp hd
    have hb := b.toNat_lt
    have hhigh := (hexUpper_value (b.toNat / 16) (by omega)).2
    have hlow := (hexUpper_value (b.toNat % 16) (by omega)).2
    simp only [List.mem_cons, List.not_mem_nil, or_false] at hd
    rcases hd with rfl | rfl | rfl
    · decide
    · rw [pathSafe, hhigh, Bool.true_or]
    · rw [pathSafe, hlow, Bool.true_or]

theorem urlencode_safe (pairs : List (List Char × List Char)) :
    ∀ c ∈ urlencode pairs, pathSafe c = true := by
  intro c hc
  have hquoted {text : List Char} (hc : c ∈ quotePlus text) : pathSafe c = true := by
    have hquoted := quotePlus_quoted hc
    rw [quotedChar, Bool.or_eq_true, Bool.or_eq_true, beq_iff_eq, beq_iff_eq] at hquoted
    rcases hquoted with (h | rfl) | rfl
    · rw [pathSafe, h, Bool.true_or]
    · decide
    · decide
  rcases LineText.mem_intercalate_list hc with hc | ⟨piece, hpiece, hc⟩
  · rw [List.mem_singleton.mp hc]
    decide
  · obtain ⟨pair, -, rfl⟩ := List.mem_map.mp hpiece
    rw [writePair, List.mem_append, List.mem_cons] at hc
    rcases hc with hc | rfl | hc
    · exact hquoted hc
    · decide
    · exact hquoted hc

/-! ### Accepted paths -/

/-- A path that the schema accepts is split, and its path is rooted or empty. -/
theorem urlsplit_webPath {tables : CaseTables} {path : String}
    (h : validateWebPath tables path = true) :
    ∃ parsed, urlsplit tables path.toList = some parsed ∧
      (parsed.path = [] ∨ parsed.path.head? = some '/') := by
  rw [validateWebPath, Bool.and_eq_true, beq_iff_eq] at h
  obtain ⟨hroot, hparsed⟩ := h
  cases hsplit : urlsplit tables path.toList with
  | none =>
    rw [hsplit] at hparsed
    cases hparsed
  | some parsed => exact ⟨parsed, rfl, urlsplit_rooted hroot hsplit⟩

/-! ### Links -/

/-- The text that `_public_host` is asked for. -/
def authority (hosts : PublicHosts) (port : PortDefinition) (scope : String) : Option String :=
  (ipAddress port.bindAddress).bind fun address =>
    if address.isUnspecified || address.isLoopback then
      if scope = "local" then some hosts.local_ else hosts.lan
    else some address.str

/-- The text of a link of these parts. -/
def linkText (port : PortDefinition) (host path query : List Char) : List Char :=
  (protocolText port.protocol).toList ++ "://".toList ++
    (host ++ ':' :: (toString port.hostPort).toList ++ path ++ signed '?' (filled query))

theorem protocolText_web {protocol : PortProtocol} (h : protocol.isWeb = true) :
    (protocolText protocol).toList ∈ webSchemes := by
  cases protocol with
  | http => decide
  | https => decide
  | tcp => cases h
  | udp => cases h

theorem endpointUrl_closed (tables : CaseTables) (hosts : PublicHosts) {port : PortDefinition}
    (h : ¬ (port.protocol.isWeb = true ∧ port.openInBrowser = true)) (scope : String) :
    endpointUrl tables hosts port scope = none := by
  have hclosed : port.protocol.isWeb = false ∨ port.openInBrowser = false := by
    cases hweb : port.protocol.isWeb with
    | false => exact .inl rfl
    | true =>
      refine .inr (Bool.eq_false_iff.mpr fun hopen => h ⟨hweb, hopen⟩)
  rw [endpointUrl, if_pos hclosed]
  rfl

/-- A link is put together from the host that the authority gives and from quoted texts. -/
theorem endpointUrl_eq {tables : CaseTables} {port : PortDefinition} (h : PortAccepted tables port)
    (hweb : port.protocol.isWeb = true) (hopen : port.openInBrowser = true) (hosts : PublicHosts)
    (scope : String) :
    ∃ path query, path.head? = some '/' ∧ (∀ c ∈ path, pathSafe c = true) ∧
      (∀ c ∈ query, pathSafe c = true) ∧
      endpointUrl tables hosts port scope =
        (publicHost (authority hosts port scope)).map fun host =>
          String.ofList (linkText port host.toList path query) := by
  obtain ⟨address, haddress, -⟩ := Option.map_eq_some_iff.mp h.bindAddress
  obtain ⟨given, hgiven⟩ := Option.ne_none_iff_exists'.mp (h.web hweb)
  obtain ⟨parsed, hsplit, hrooted⟩ := urlsplit_webPath (h.path given hgiven)
  have hsome : given ≠ "" := by
    rintro rfl
    have hempty := h.path "" hgiven
    revert hempty
    rw [validateWebPath]
    exact Bool.false_ne_true
  have hpath : (if parsed.path = [] then ['/'] else parsed.path).head? = some '/' := by
    split_ifs with hempty
    · rfl
    · exact hrooted.resolve_left hempty
  have hhead : ((if parsed.path = [] then ['/'] else parsed.path).flatMap
      (quoteChar "/%:@-._~!$&'()*+,;=".toList)).head? = some '/' := by
    generalize (if parsed.path = [] then ['/'] else parsed.path) = path at hpath
    cases path with
    | nil => cases hpath
    | cons c path =>
      cases hpath
      rfl
  refine ⟨_, urlencode (parseQsl parsed.query), hhead, ?_, urlencode_safe _, ?_⟩
  · intro c hc
    obtain ⟨given, -, hc⟩ := List.mem_flatMap.mp hc
    exact quoteChar_safe given c hc
  · have hopened : ¬ (port.protocol.isWeb = false ∨ port.openInBrowser = false) := by
      rw [hweb, hopen]
      decide
    rw [endpointUrl, if_neg hopened]
    simp only [haddress, hgiven, Option.getD_some, if_neg hsome, hsplit, Option.bind_eq_bind,
      Option.bind_some, Option.pure_def]
    generalize (if parsed.path = [] then ['/'] else parsed.path).flatMap
      (quoteChar "/%:@-._~!$&'()*+,;=".toList) = path at hhead
    generalize urlencode (parseQsl parsed.query) = query
    have hwritten (m : Option String) :
        (m.bind fun host => some (String.ofList (urlunsplit {
          scheme := (protocolText port.protocol).toList
          netloc := (toString host ++ toString ":" ++ toString port.hostPort).toList
          path, query, fragment := [] }))) =
        m.map fun host => String.ofList (linkText port host.toList path query) := by
      rw [Option.map_eq_bind]
      refine congrArg m.bind (funext fun host => congrArg (some ∘ String.ofList) ?_)
      rw [urlunsplit_web (protocolText_web hweb) _ (.inr hhead), String.toList_append,
        String.toList_append, linkText]
      have hcolon : (toString ":").toList = [':'] := rfl
      have hnone : signed '#' (filled []) = [] := rfl
      rw [hcolon, hnone, List.append_nil]
      simp only [List.append_assoc, List.cons_append, List.nil_append]
      rfl
    rw [authority, haddress, Option.bind_some, ← hwritten]
    split_ifs
    · rfl
    · rfl
    · rfl

/-! ### Well-formed links -/

/-- A link of a host, the declared port and URL-safe characters, of which a URL parser sees the
protocol, the host and the port that were meant. -/
def WellFormedUrl (tables : CaseTables) (port : PortDefinition) (url : List Char) : Prop :=
  ∃ host bare rest parsed, LinkHost host bare ∧ (∀ c ∈ rest, urlSafe c = true) ∧
    url = (protocolText port.protocol).toList ++ "://".toList ++
      (host ++ ':' :: (toString port.hostPort).toList ++ '/' :: rest) ∧
    urlsplit tables url = some parsed ∧
    parsed.scheme = (protocolText port.protocol).toList ∧ parsed.hostinfo.1 = bare ∧
    parsed.port = some (some port.hostPort) ∧ parsed.username = none

section Links

variable {tables : CaseTables} {port : PortDefinition} {path query : List Char}

theorem hostPort_digits (port : PortDefinition) :
    (toString port.hostPort).toList ≠ [] ∧ ∀ c ∈ (toString port.hostPort).toList, c.isDigit = true := by
  have htext : (toString port.hostPort).toList = Nat.toDigits 10 port.hostPort :=
    String.toList_ofList
  rw [htext]
  exact ⟨Nat.toDigits_ne_nil, fun c hc => Nat.isDigit_of_mem_toDigits (by decide) (by decide) hc⟩

theorem linkText_wellFormed (hweb : port.protocol.isWeb = true) {host bare : List Char}
    (h : LinkHost host bare) (hroot : path.head? = some '/')
    (hpath : ∀ c ∈ path, pathSafe c = true) (hquery : ∀ c ∈ query, pathSafe c = true) :
    WellFormedUrl tables port (linkText port host path query) := by
  obtain ⟨hsome, hdigits⟩ := hostPort_digits port
  have hsplit := urlsplit_written tables (protocolText_web hweb) h.hostText hdigits hroot
    (fun c hc => pathSafe_delimiters (hpath c hc))
    fun c hc =>
      outside (List.all_iff_forall_prop.mp (by decide)) (pathSafe_delimiters (hquery c hc))
  cases path with
  | nil => cases hroot
  | cons c path =>
    cases hroot
    refine ⟨host, bare, path ++ signed '?' (filled query), _, h, fun c hc => ?_, ?_, hsplit, rfl, ?_,
      ?_, username_written h.hostText hdigits rfl⟩
    · rw [urlSafe, Bool.or_eq_true, beq_iff_eq]
      rcases List.mem_append.mp hc with hc | hc
      · exact .inl (hpath c (List.mem_cons_of_mem _ hc))
      · rcases mem_signed_filled hc with heq | hc
        · exact .inr heq
        · exact .inl (hquery c hc)
    · rw [linkText]
      simp only [List.append_assoc, List.cons_append]
    · rw [hostinfo_written h.hostText hdigits hsome rfl]
    · refine port_written port.hostPort_range.2 ?_
      rw [hostinfo_written h.hostText hdigits hsome rfl]

/-- A zone ends the host of a link before its bracket. -/
theorem not_wellFormed_zoned {inner zone : List Char} (hinner : ∀ c ∈ inner, v6Char c = true) :
    ¬ WellFormedUrl tables port
      (linkText port ('[' :: inner ++ '%' :: (zone ++ [']'])) path query) := by
  rintro ⟨host, bare, rest, parsed, h, -, hurl, -⟩
  rw [linkText] at hurl
  have htail := List.append_cancel_left hurl
  cases h.hostText with
  | plain hchars =>
    cases host with
    | nil => cases htail
    | cons c host =>
      have hc : '[' = c := (List.cons.inj htail).1
      have hbracket := hchars c List.mem_cons_self
      rw [← hc] at hbracket
      revert hbracket
      decide
  | bracketed hchars hread =>
    simp only [List.append_assoc, List.cons_append, List.nil_append] at htail
    -- behind the characters of the address a percent sign cannot be the bracket
    have hdrop := congrArg (List.dropWhile v6Char) (List.cons.inj htail).2
    rw [List.dropWhile_append_of_pos hinner, List.dropWhile_append_of_pos hchars] at hdrop
    have hhead := congrArg List.head? hdrop
    have hpercent : v6Char '%' = false := by decide
    have hclose : v6Char ']' = false := by decide
    rw [List.dropWhile_cons_of_neg (Bool.eq_false_iff.mp hpercent),
      List.dropWhile_cons_of_neg (Bool.eq_false_iff.mp hclose)] at hhead
    cases hhead

end Links

/-- The port of a Web UI that a browser opens, on an address. -/
def webInput (bindAddress : String) : JsonText.Json :=
  .obj [("id", .str "ui"), ("name", .str "Web UI"), ("host_port", .int 8080),
    ("bind_address", .str bindAddress), ("open_in_browser", .bool true)]

def webPort (bindAddress : String) : PortDefinition where
  id := "ui"
  name := "Web UI"
  hostPort := 8080
  bindAddress := bindAddress
  path := some "/"
  openInBrowser := true
  hostPort_range := by decide

theorem validatePort_global :
    validatePort jsonScalars ⟨id, id⟩ (webInput "2001:DB8:0::1") = some (webPort "2001:db8::1") := by
  rfl

theorem validatePort_scoped :
    validatePort jsonScalars ⟨id, id⟩ (webInput "fe80::1%eth0") = some (webPort "fe80::1%eth0") := by
  rfl

theorem authority_global :
    authority ⟨"127.0.0.1", none⟩ (webPort "2001:db8::1") "local" = some "2001:db8::1" := by
  decide +kernel

theorem endpointUrl_global_text :
    endpointUrl ⟨id, id⟩ ⟨"127.0.0.1", none⟩ (webPort "2001:db8::1") "local" =
      some "http://[2001:db8::1]:8080/" := by
  decide +kernel

theorem endpointUrl_scoped_text :
    endpointUrl ⟨id, id⟩ ⟨"127.0.0.1", none⟩ (webPort "fe80::1%eth0") "local" =
      some "http://[fe80::1%eth0]:8080/" := by
  decide +kernel

end MachineDeck.Ports

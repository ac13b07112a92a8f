import MachineDeck.ConfigDocument
import MachineDeck.ServerFile
import MachineDeck.Traversals

/-!
# Rendering and reading a configuration

* `Installed` — what the installer chooses, and what it takes over from the request;
* `Acceptable` — an origin that the installer and the server judge alike;
* `Readable` — no text of the request and none of the paths has the delete character;
* `config_round_trip` — a rendered configuration is read back where they are readable, and only
  there.
-/

namespace MachineDeck.Access

open FirstOccurrences (firsts mem_firsts nodup_firsts firsts_sublist)
open IpAddress (ipAddress ipNetwork)
open LineText (isSpace mem_rdropWhile mem_stripBy stripBy_stripBy)
open TomlText (del Toml)
open Traversals
open UrlSplit (CaseTables urlsplit)
open scoped LineText

/-! ### What the installer chooses -/

section Installer

variable {interp : Interpreter} {tables : CaseTables} {machine : LanHost} {request : AccessRequest}
  {configuration : ServerConfiguration}

/-- The hosts that an installation adds to its origins. -/
def lanHosts (tables : CaseTables) (machine : LanHost) (request : AccessRequest) : List String :=
  if request.access = "lan" then
    lanHostname tables machine request ::
      ((lanAddresses tables machine request).filterMap ipAddress).map urlHost
  else []

structure Installed (tables : CaseTables) (machine : LanHost) (request : AccessRequest)
    (configuration : ServerConfiguration) : Prop where
  mode : (configuration.mode, configuration.host) ∈
    [("local", "127.0.0.1"), ("proxy", "127.0.0.1"), ("lan", "0.0.0.0")]
  port : configuration.port = 8080
  cookie : configuration.cookieSecure = .str "auto"
  origins : configuration.trustedOrigins = firsts (localOrigins ++
    ((lanHosts tables machine request).map lanOrigin ++ request.trustedOrigins.map trimOrigin))
  host : configuration.publicHostLan = ((lanHosts tables machine request).head?).map .str
  proxies : configuration.trustedProxies =
    if request.access = "tailscale" then
      firsts ("127.0.0.1/32" :: "::1/128" :: request.trustedProxies.map stripText)
    else request.trustedProxies.map stripText
  networks : configuration.trustedNetworks =
    firsts (defaultNetworks ++ request.trustedNetworks.map stripText)

theorem validateText_ok {value label text : String} (h : validateText value label = .ok text) :
    text = value ∧ value ≠ "" := by
  unfold validateText at h
  split_ifs at h with hbad
  cases h
  exact ⟨rfl, fun hempty => hbad (.inl hempty)⟩

/-- An origin that passes, without the blanks and the slashes around it. -/
structure Acceptable (tables : CaseTables) (schemes : List String) (value : String) : Prop where
  nonempty : trimOrigin value ≠ ""
  parsed : ∃ parsed, urlsplit tables (trimOrigin value).toList = some parsed ∧
    parsed.port ≠ none ∧ strays tables schemes parsed = false

theorem validatedOrigin_ok {httpsRequired : Bool} {value origin : String}
    (h : validatedOrigin tables httpsRequired value = .ok origin) :
    origin = trimOrigin value ∧
      Acceptable tables (if httpsRequired then ["https"] else ["http", "https"]) value := by
  obtain ⟨normalized, htext, h⟩ := bind_ok h
  obtain ⟨rfl, hnonempty⟩ := validateText_ok htext
  cases hsplit : urlsplit tables (trimOrigin value).toList with
  | none =>
    rw [hsplit] at h
    cases h
  | some parsed =>
    rw [hsplit] at h
    simp only at h
    by_cases hport : parsed.port = none
    · rw [if_pos hport] at h
      cases h
    rw [if_neg hport] at h
    by_cases hscheme : httpsRequired = true ∧ parsed.scheme ≠ "https".toList
    · rw [if_pos hscheme] at h
      cases h
    rw [if_neg hscheme] at h
    cases hstrays : strays tables (if httpsRequired then ["https"] else ["http", "https"]) parsed with
    | true =>
      rw [hstrays] at h
      cases h
    | false =>
      rw [hstrays] at h
      cases h
      exact ⟨rfl, hnonempty, parsed, hsplit, hport, hstrays⟩

theorem addressHost_ok {raw host : String} (h : addressHost raw = .ok host) :
    (ipAddress raw).map urlHost = some host := by
  unfold addressHost at h
  cases hraw : ipAddress raw with
  | none =>
    rw [hraw] at h
    cases h
  | some address =>
    rw [hraw] at h
    cases h
    rfl

theorem mapM_addressHost {raws hosts : List String} (h : raws.mapM addressHost = .ok hosts) :
    hosts = (raws.filterMap ipAddress).map urlHost := by
  have hall := mapM_ok h
  clear h
  induction hall with
  | nil => rfl
  | cons hfirst _ ih =>
    obtain ⟨address, haddress, rfl⟩ := Option.map_eq_some_iff.mp (addressHost_ok hfirst)
    rw [List.filterMap_cons_some haddress, List.map_cons, ← ih]

theorem accessConfiguration_installed
    (h : accessConfiguration tables machine request = .ok configuration) :
    Installed tables machine request configuration := by
  unfold accessConfiguration at h
  by_cases haccess : request.access ∉ installAccessModes
  · rw [if_pos haccess] at h
    cases h
  rw [if_neg haccess] at h
  obtain ⟨extra, hextra, h⟩ := bind_ok h
  have horigins : extra = request.trustedOrigins.map trimOrigin := by
    have hmapped := map_of_mapM (g := id) (k := trimOrigin) hextra fun value origin hvalue =>
      (validatedOrigin_ok hvalue).1
    rwa [List.map_id] at hmapped
  subst horigins
  by_cases hlocal : request.access = "local"
  · have hlan : request.access ≠ "lan" := by
      rw [hlocal]
      decide
    have htail : request.access ≠ "tailscale" := by
      rw [hlocal]
      decide
    simp only [if_pos hlocal] at h
    cases h
    constructor <;> simp [lanHosts, hlan, htail]
  by_cases htail : request.access = "tailscale"
  · have hlan : request.access ≠ "lan" := by
      rw [htail]
      decide
    simp only [if_neg hlocal, if_pos htail] at h
    cases h
    constructor <;> simp [lanHosts, htail]
  · have hlan : request.access = "lan" := by
      simpa [installAccessModes, hlocal, htail] using haccess
    simp only [if_neg hlocal, if_neg htail] at h
    obtain ⟨hosts, hhosts, h⟩ := bind_ok h
    rw [mapM_addressHost hhosts] at h
    cases h
    constructor <;> simp [lanHosts, hlan]

/-! ### Characters of the texts -/

variable {c : Char}

theorem mem_stripText (hspace : isSpace c = false) {value : String} :
    c ∈ (stripText value).toList ↔ c ∈ value.toList := by
  rw [stripText, String.toList_ofList]
  exact mem_stripBy hspace

theorem mem_trimOrigin (hspace : isSpace c = false) (hslash : c ≠ '/') {value : String} :
    c ∈ (trimOrigin value).toList ↔ c ∈ value.toList := by
  rw [trimOrigin, String.toList_ofList, mem_rdropWhile (by simpa using hslash)]
  exact mem_stripBy hspace

theorem mem_lanOrigin (hfixed : c ∉ "http://:8080".toList) {host : String} :
    c ∈ (lanOrigin host).toList ↔ c ∈ host.toList := by
  have hfront : c ∉ "http://".toList := fun h => hfixed (List.mem_append_left ":8080".toList h)
  have hback : c ∉ ":8080".toList := fun h => hfixed (List.mem_append_right "http://".toList h)
  simp only [lanOrigin, String.toList_append, List.mem_append, hfront, hback, false_or, or_false]

/-- A character that the installer does not add is in an origin only where it was in one of the
request, or in a host. -/
theorem Installed.origins_without (h : Installed tables machine request configuration)
    (hspace : isSpace c = false) (hslash : c ≠ '/')
    (hlocal : ∀ origin ∈ localOrigins, c ∉ origin.toList) :
    (∀ origin ∈ configuration.trustedOrigins, c ∉ origin.toList) ↔
      (∀ host ∈ lanHosts tables machine request, c ∉ host.toList) ∧
        ∀ origin ∈ request.trustedOrigins, c ∉ origin.toList := by
  have hfixed : c ∉ "http://:8080".toList := by
    intro hc
    have hin : ∀ d ∈ "http://:8080".toList, d ∈ "http://127.0.0.1:8080".toList := by decide
    exact hlocal "http://127.0.0.1:8080" (by decide) (hin c hc)
  simp only [h.origins, mem_firsts, List.forall_mem_append, List.forall_mem_map,
    mem_lanOrigin hfixed, mem_trimOrigin hspace hslash]
  exact and_iff_right hlocal

/-! ### Reading back -/

theorem stripSlashes_trimOrigin (value : String) :
    stripSlashes (trimOrigin value) = trimOrigin value := by
  rw [stripSlashes, trimOrigin, String.toList_ofList, List.rdropWhile_idempotent]

theorem stripSlashes_lanOrigin (host : String) : stripSlashes (lanOrigin host) = lanOrigin host := by
  have hend : (lanOrigin host).toList = ("http://" ++ host ++ ":808").toList ++ ['0'] := by
    simp [lanOrigin]
  rw [stripSlashes, hend, List.rdropWhile_concat_neg _ _ _ (by decide), ← hend, String.ofList_toList]

theorem Installed.stripSlashes (h : Installed tables machine request configuration) :
    ∀ origin ∈ configuration.trustedOrigins, stripSlashes origin = origin := by
  have hlocal : ∀ origin ∈ localOrigins, Access.stripSlashes origin = origin := by decide
  rw [h.origins]
  simp only [mem_firsts, List.forall_mem_append, List.forall_mem_map]
  exact ⟨hlocal, fun host _ => stripSlashes_lanOrigin host, fun value _ =>
    stripSlashes_trimOrigin value⟩

/-- What has been checked of a configuration that is written. -/
structure Validated (interp : Interpreter) (configuration : ServerConfiguration) : Prop where
  cookie : cookieOk interp configuration.cookieSecure = true
  origins : ∀ origin ∈ configuration.trustedOrigins,
    Acceptable interp.tables ["http", "https"] origin
  proxies : validateNetworks "trusted_proxies" configuration.trustedProxies = .ok ()
  networks : validateNetworks "trusted_networks" configuration.trustedNetworks = .ok ()

theorem validated_of_ok (h : validateServerConfiguration interp configuration = .ok ()) :
    Validated interp configuration := by
  unfold validateServerConfiguration at h
  by_cases hmode : configuration.mode ∉ serverAccessModes
  · rw [if_pos hmode] at h
    cases h
  rw [if_neg hmode] at h
  cases hhost : ipAddress configuration.host with
  | none =>
    rw [hhost] at h
    cases h
  | some address =>
    rw [hhost] at h
    simp only at h
    split_ifs at h with hloopback hunspecified hport hcookie
    obtain ⟨⟨⟩, horigins, h⟩ := bind_ok h
    obtain ⟨⟨⟩, hproxies, hnetworks⟩ := bind_ok h
    refine ⟨Bool.of_not_eq_false hcookie, fun origin horigin => ?_, hproxies, hnetworks⟩
    have hchecked := forM_ok.mp horigins origin horigin
    cases hvalid : validatedOrigin interp.tables false origin with
    | error e =>
      rw [hvalid] at hchecked
      cases hchecked
    | ok normalized => exact (validatedOrigin_ok hvalid).2

theorem renderConfig_ok {paths : InstallPaths} {text : String}
    (h : renderConfig interp paths configuration = .ok text) :
    validateServerConfiguration interp configuration = .ok () ∧
      text = String.ofList (TomlText.unlines (renderLines interp paths configuration)) := by
  obtain ⟨⟨⟩, hvalid, h⟩ := bind_ok h
  cases h
  exact ⟨hvalid, rfl⟩

/-- An origin without a host does not pass. -/
theorem lanHost_ne_empty (h : Installed interp.tables machine request configuration)
    (hvalid : Validated interp configuration) :
    ∀ host ∈ lanHosts interp.tables machine request, host ≠ "" := by
  rintro host hhost rfl
  have horigin : lanOrigin "" ∈ configuration.trustedOrigins := by
    rw [h.origins, mem_firsts]
    exact List.mem_append_right _ (List.mem_append_left _ (List.mem_map_of_mem hhost))
  obtain ⟨-, parsed, hparsed, -, hstrays⟩ := hvalid.origins _ horigin
  have htrim : (trimOrigin (lanOrigin "")).toList = "http://:8080".toList := by decide
  have hsplit : urlsplit interp.tables "http://:8080".toList =
      some ⟨"http".toList, ":8080".toList, [], [], []⟩ := rfl
  rw [htrim, hsplit] at hparsed
  cases hparsed
  have hhostless : strays interp.tables ["http", "https"]
      ⟨"http".toList, ":8080".toList, [], [], []⟩ = true := rfl
  rw [hhostless] at hstrays
  cases hstrays

theorem publicHost_installed (h : Installed interp.tables machine request configuration)
    (hvalid : Validated interp configuration) :
    (publicHost interp configuration).map .str = configuration.publicHostLan := by
  rw [publicHost, h.host]
  cases hhosts : lanHosts interp.tables machine request with
  | nil => rfl
  | cons host hosts =>
    have hne : host ≠ "" := lanHost_ne_empty h hvalid host (by rw [hhosts]; exact List.mem_cons_self)
    show (if truthy interp (.str host) then some host else none).map Toml.str = some (.str host)
    have htruthy : truthy interp (.str host) = true := decide_eq_true hne
    rw [if_pos htruthy]
    rfl

/-- What the reader takes from the tables of the file, before it checks it. -/
def takenBack (interp : Interpreter) (configuration : ServerConfiguration) : ServerConfiguration :=
  configurationOf interp (serverTable interp configuration) [("cookie_secure", .str "auto")]
    (configuration.trustedOrigins.map .str) (configuration.trustedProxies.map .str)
    (configuration.trustedNetworks.map .str) 8080

theorem serverConfiguration_taken (interp : Interpreter) (paths : InstallPaths)
    (configuration : ServerConfiguration) :
    serverConfiguration interp (renderedTable interp paths configuration "auto") =
      (validateServerConfiguration interp (takenBack interp configuration)).map fun _ =>
        takenBack interp configuration := by
  have hserver : tableOf (renderedTable interp paths configuration "auto") "server" =
      some (serverTable interp configuration) := rfl
  have hsecurity : tableOf (renderedTable interp paths configuration "auto") "security" =
      some [("cookie_secure", .str "auto")] := rfl
  have hnetwork : tableOf (renderedTable interp paths configuration "auto") "network" =
      some (networkTable configuration) := rfl
  obtain ⟨-, -, hport, -, horigins⟩ := serverTable_lookup interp configuration
  have horigins : listOf (serverTable interp configuration) "trusted_origins" [] =
      some (configuration.trustedOrigins.map .str) := by
    rw [listOf, horigins]
    rfl
  have hproxies : listOf (networkTable configuration) "trusted_proxies" [] =
      some (configuration.trustedProxies.map .str) := rfl
  have hnetworks : ∀ default, listOf (networkTable configuration) "trusted_networks" default =
      some (configuration.trustedNetworks.map .str) := fun _ => rfl
  have hport : serverPort interp (serverTable interp configuration) = .ok 8080 := by
    rw [serverPort, hport]
    rfl
  simp only [serverConfiguration, hserver, hsecurity, hnetwork, horigins, hproxies, hnetworks,
    hport, takenBack, bind, Except.bind, pure, Except.pure, Except.map]

theorem map_str (interp : Interpreter) (values : List String) :
    (values.map Toml.str).map (pyText interp) = values := by
  rw [List.map_map]
  exact List.map_id values

theorem takenBack_installed (h : Installed interp.tables machine request configuration)
    (hvalid : Validated interp configuration) : takenBack interp configuration = configuration := by
  have hwords : ∀ found ∈ [("local", "127.0.0.1"), ("proxy", "127.0.0.1"), ("lan", "0.0.0.0")],
      (lower (stripText found.1), stripText found.2) = found := by decide
  have hmode := hwords _ h.mode
  have horigins : (configuration.trustedOrigins.map Toml.str).map
      (fun origin => Access.stripSlashes (pyText interp origin)) = configuration.trustedOrigins := by
    rw [List.map_map]
    exact (List.map_congr_left h.stripSlashes).trans (List.map_id _)
  have hcookie : [("cookie_secure", Toml.str "auto")].lookup "cookie_secure" =
      some (.str "auto") := rfl
  obtain ⟨hmodeValue, hhostValue, -, hpublic, -⟩ := serverTable_lookup interp configuration
  rw [takenBack, configurationOf, hmodeValue, hhostValue, hpublic, hcookie, map_str, map_str,
    publicHost_installed h hvalid, horigins]
  simp only [Option.getD_some, show ∀ value, pyText interp (.str value) = value from fun _ => rfl]
  rw [← h.port, ← h.cookie, (Prod.mk.inj hmode).1, (Prod.mk.inj hmode).2]

/-- The tables of the file are read as the configuration. -/
theorem serverConfiguration_rendered {paths : InstallPaths}
    (h : Installed interp.tables machine request configuration)
    (hvalid : validateServerConfiguration interp configuration = .ok ()) :
    serverConfiguration interp (renderedTable interp paths configuration "auto") =
      .ok configuration := by
  rw [serverConfiguration_taken, takenBack_installed h (validated_of_ok hvalid), hvalid]
  rfl

/-! ### The round trip -/

/-- Nowhere the delete character. -/
structure Readable (tables : CaseTables) (machine : LanHost) (request : AccessRequest)
    (paths : InstallPaths) : Prop where
  hosts : ∀ host ∈ lanHosts tables machine request, del ∉ host.toList
  origins : ∀ origin ∈ request.trustedOrigins, del ∉ origin.toList
  proxies : ∀ network ∈ request.trustedProxies, del ∉ network.toList
  networks : ∀ network ∈ request.trustedNetworks, del ∉ network.toList
  home : del ∉ paths.home.toList
  state : del ∉ paths.state.toList
  userUnitDir : del ∉ paths.userUnitDir.toList

theorem mem_databaseUrl {paths : InstallPaths} :
    del ∈ (databaseUrl paths).toList ↔ del ∈ paths.state.toList := by
  have hscheme : del ∉ "sqlite:///".toList := by decide
  have hname : del ∉ "/machinedeck.db".toList := by decide
  simp only [databaseUrl, String.toList_append, List.mem_append, hscheme, hname, false_or, or_false]
  split_ifs with hroot
  · rw [hroot]
    decide
  · exact Iff.rfl

theorem Installed.proxies_without (h : Installed tables machine request configuration) :
    (∀ network ∈ configuration.trustedProxies, del ∉ network.toList) ↔
      ∀ network ∈ request.trustedProxies, del ∉ network.toList := by
  have hspace : isSpace del = false := by decide
  have hfirst : del ∉ "127.0.0.1/32".toList := by decide
  have hsecond : del ∉ "::1/128".toList := by decide
  rw [h.proxies]
  split_ifs
  · simp only [mem_firsts, List.forall_mem_cons, List.forall_mem_map, mem_stripText hspace]
    exact (and_iff_right hfirst).trans (and_iff_right hsecond)
  · simp only [List.forall_mem_map, mem_stripText hspace]

theorem Installed.networks_without (h : Installed tables machine request configuration) :
    (∀ network ∈ configuration.trustedNetworks, del ∉ network.toList) ↔
      ∀ network ∈ request.trustedNetworks, del ∉ network.toList := by
  have hspace : isSpace del = false := by decide
  have hdefault : ∀ network ∈ defaultNetworks, del ∉ network.toList := by decide
  rw [h.networks]
  simp only [mem_firsts, List.forall_mem_append, List.forall_mem_map, mem_stripText hspace]
  exact and_iff_right hdefault

/-- What is written is legal if and only if what was asked for is. -/
theorem readable_iff {paths : InstallPaths}
    (h : Installed interp.tables machine request configuration)
    (hvalid : Validated interp configuration) :
    (∀ value ∈ renderedTexts interp paths configuration "auto", del ∉ value.toList) ↔
      Readable interp.tables machine request paths := by
  have horigins := h.origins_without (c := del) (by decide) (by decide) (by decide)
  have hwords : ∀ found ∈ [("local", "127.0.0.1"), ("proxy", "127.0.0.1"), ("lan", "0.0.0.0")],
      del ∉ found.1.toList ∧ del ∉ found.2.toList ∧ del ∉ "auto".toList ∧ del ∉ "/".toList := by
    decide
  have hhost : ∀ host ∈ publicHost interp configuration,
      host ∈ lanHosts interp.tables machine request := by
    intro host hhost
    have hhead := publicHost_installed h hvalid
    rw [Option.mem_def.mp hhost, h.host] at hhead
    obtain ⟨first, hfirst, hsame⟩ := Option.map_eq_some_iff.mp hhead.symm
    cases hsame
    exact List.mem_of_head? hfirst
  rw [forall_renderedTexts, horigins, h.proxies_without, h.networks_without,
    and_iff_right (hwords _ h.mode), mem_databaseUrl]
  constructor
  · rintro ⟨-, ⟨hhosts, horigins⟩, hproxies, hnetworks, hstate, hhome, hunit⟩
    exact ⟨hhosts, horigins, hproxies, hnetworks, hhome, hstate, hunit⟩
  · intro hreadable
    exact ⟨fun host hmem => hreadable.hosts host (hhost host hmem),
      ⟨hreadable.hosts, hreadable.origins⟩, hreadable.proxies, hreadable.networks,
      hreadable.state, hreadable.home, hreadable.userUnitDir⟩

/-- The tables of the file that was written. -/
theorem loads_renderConfig {paths : InstallPaths} {text : String}
    (h : Installed interp.tables machine request configuration)
    (hrender : renderConfig interp paths configuration = .ok text) :
    (Readable interp.tables machine request paths →
      TomlText.loads text = some (renderedTable interp paths configuration "auto")) ∧
    (¬ Readable interp.tables machine request paths → TomlText.loads text = none) := by
  obtain ⟨hvalid, rfl⟩ := renderConfig_ok hrender
  rw [← readable_iff h (validated_of_ok hvalid)]
  constructor
  · exact fun hquoted => loads_rendered h.port h.cookie hquoted
  · intro hquoted
    push Not at hquoted
    exact loads_rendered_del h.port h.cookie hquoted

/-- **Rendering and reading are inverse** where the delete character is nowhere in what was asked
for, and only there. -/
theorem config_round_trip {paths : InstallPaths} {file : ConfigFile}
    (haccess : accessConfiguration interp.tables machine request = .ok configuration)
    (hrender : renderConfig interp paths configuration = .ok file.text) :
    readServerConfiguration interp file = .ok configuration ↔
      Readable interp.tables machine request paths := by
  have hinstalled := accessConfiguration_installed haccess
  obtain ⟨hread, hrefused⟩ := loads_renderConfig hinstalled hrender
  constructor
  · intro hsame
    by_contra hnot
    rw [readServerConfiguration, hrefused hnot] at hsame
    cases hsame
  · intro hreadable
    rw [readServerConfiguration, hread hreadable]
    exact serverConfiguration_rendered hinstalled (renderConfig_ok hrender).1

end Installer

/-! ### One installation that is read back, and one that is not -/

def homePaths : InstallPaths :=
  ⟨"/home/deck", "/home/deck/state", "/home/deck/.config/systemd/user"⟩

def bareHost : LanHost := ⟨"deck", fun _ => []⟩

/-- What an installation for this machine alone comes to, with further origins. -/
def localConfiguration (extraOrigins : List String) : ServerConfiguration where
  mode := "local"
  host := "127.0.0.1"
  port := 8080
  cookieSecure := .str "auto"
  trustedOrigins := firsts (localOrigins ++ extraOrigins)
  trustedNetworks := defaultNetworks

def localFile (extraOrigins : List String) : ConfigFile where
  path := "config.toml"
  text := String.ofList (TomlText.unlines
    (renderLines plainInterpreter homePaths (localConfiguration extraOrigins)))
  complaint := "Illegal character"

theorem renderConfig_local {extraOrigins : List String}
    (hvalid : validateServerConfiguration plainInterpreter (localConfiguration extraOrigins) =
      .ok ()) :
    renderConfig plainInterpreter homePaths (localConfiguration extraOrigins) =
      .ok (localFile extraOrigins).text := by
  rw [renderConfig, hvalid]
  rfl

theorem config_round_trip_local :
    readServerConfiguration plainInterpreter (localFile []) = .ok (localConfiguration []) := by
  have haccess : accessConfiguration plainInterpreter.tables bareHost { access := "local" } =
      .ok (localConfiguration []) := rfl
  have hvalid : validateServerConfiguration plainInterpreter (localConfiguration []) =
      .ok () := by decide +kernel
  have hreadable : Readable plainInterpreter.tables bareHost { access := "local" } homePaths := by
    constructor <;> decide
  exact (config_round_trip haccess (renderConfig_local hvalid)).mpr hreadable

def strangeOrigin : String := "https://a\x7f.example"

/-- An origin with the delete character is accepted and written, and the file is refused. -/
theorem config_delete_unreadable :
    accessConfiguration plainInterpreter.tables bareHost
        { access := "local", trustedOrigins := [strangeOrigin] } =
      .ok (localConfiguration [strangeOrigin]) ∧
    renderConfig plainInterpreter homePaths (localConfiguration [strangeOrigin]) =
      .ok (localFile [strangeOrigin]).text ∧
    readServerConfiguration plainInterpreter (localFile [strangeOrigin]) ≠
      .ok (localConfiguration [strangeOrigin]) := by
  have haccess : accessConfiguration plainInterpreter.tables bareHost
      { access := "local", trustedOrigins := [strangeOrigin] } =
        .ok (localConfiguration [strangeOrigin]) := rfl
  have hvalid : validateServerConfiguration plainInterpreter (localConfiguration [strangeOrigin]) =
      .ok () := by decide +kernel
  have hrender := renderConfig_local hvalid
  have hnot : ¬ Readable plainInterpreter.tables bareHost
      { access := "local", trustedOrigins := [strangeOrigin] } homePaths := by
    intro hreadable
    exact absurd (hreadable.origins strangeOrigin (by decide)) (by decide)
  refine ⟨haccess, hrender, ?_⟩
  rw [readServerConfiguration,
    (loads_renderConfig (accessConfiguration_installed haccess) hrender).2 hnot]
  exact fun h => by cases h

end MachineDeck.Access

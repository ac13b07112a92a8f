import MachineDeck.ConfigRoundTrip
import MachineDeck.ServerConfig

/-!
# What the installer writes and what the server loads

* `NoVariables` — nothing but the file has a say;
* `SameAccess` — the settings are those of the configuration that was rendered;
* `Agreeable` — beyond what makes the file readable: the rule about `*` that only the server has,
  and origins that have no blank before their slashes;
* `installed_config_loads` — the server loads what was written as it was meant where the request
  is agreeable, and only there.
-/

namespace MachineDeck.Config

open Access
open FirstOccurrences (addNew firsts firsts_of_nodup foldlM_addNew map_eq_self nodup_firsts mem_firsts)
open IpAddress (CanonicalNetwork ipNetwork)
open LineText (stripBy stripBy_eq stripBy_stripBy)
open TomlText (Table Toml)
open Traversals
open UrlSplit (CaseTables urlsplit)
open scoped LineText

section Agreement

variable {env : Surroundings} {machine : LanHost} {request : AccessRequest}
  {configuration : ServerConfiguration} {paths : InstallPaths}

/-! ### The file alone -/

/-- The variables that come before the file. -/
def settingVariables : List String :=
  ["MACHINEDECK_ACCESS_MODE", "MACHINEDECK_BIND_HOST", "MACHINEDECK_BIND_PORT",
    "MACHINEDECK_COOKIE_SECURE", "MACHINEDECK_TRUSTED_ORIGINS", "MACHINEDECK_TRUSTED_PROXIES",
    "MACHINEDECK_TRUSTED_NETWORKS", "MACHINEDECK_ALLOWED_ROOTS", "MACHINEDECK_MONITOR_DISKS",
    "MACHINEDECK_USER_UNIT_DIR", "MACHINEDECK_DATABASE_URL", "MACHINEDECK_PUBLIC_HOST_LOCAL",
    "MACHINEDECK_PUBLIC_HOST_LAN"]

def NoVariables (env : Surroundings) : Prop := ∀ name ∈ settingVariables, env.getenv name = none

theorem settingValue_file (h : NoVariables env) {setting : String} (hs : setting ∈ settingVariables)
    (config : Table) (section' name : String) :
    settingValue env config setting section' name = value? config section' name := by
  rw [settingValue, h setting hs]

theorem listItems_file (h : NoVariables env) {setting : String} (hs : setting ∈ settingVariables)
    {config : Table} {section' name : String} {items : List Toml}
    (hvalue : value? config section' name = some (.arr items)) (default : List String) :
    listItems env config setting section' name default = items := by
  rw [listItems, h setting hs]
  simp only [listItems.fromFile, hvalue]

/-! ### Values without blanks around them -/

theorem stripText_stripText (value : String) : stripText (stripText value) = stripText value := by
  rw [stripText, stripText, String.toList_ofList]
  exact congrArg String.ofList (stripBy_stripBy _ _)

theorem trimOrigin_lanOrigin (host : String) : trimOrigin (lanOrigin host) = lanOrigin host := by
  have hhead : (lanOrigin host).toList = 'h' :: ("ttp://" ++ host ++ ":8080").toList := by
    simp [lanOrigin]
  have hend : (lanOrigin host).toList = ("http://" ++ host ++ ":808").toList ++ ['0'] := by
    simp [lanOrigin]
  have hstrip : LineText.strip (lanOrigin host).toList = (lanOrigin host).toList := by
    rw [LineText.strip, stripBy_eq]
    rw [hhead, List.dropWhile_cons_of_neg (by decide), ← hhead, hend,
      List.rdropWhile_concat_neg _ _ _ (by decide)]
  rw [trimOrigin, hstrip, hend, List.rdropWhile_concat_neg _ _ _ (by decide), ← hend,
    String.ofList_toList]

/-! ### Origins -/

/-- An origin that the installer accepts is refused by the server only for a `*`. -/
theorem readOrigin_acceptable {origin : String}
    (h : Acceptable env.tables ["http", "https"] origin) :
    readOrigin env (.str origin) =
      if '*' ∈ origin.toList then
        .error (.runtimeError "server.trusted_origins must contain exact HTTP or HTTPS Origins")
      else .ok (some (trimOrigin origin)) := by
  obtain ⟨hnonempty, parsed, hparsed, hport, hstrays⟩ := h
  have hstar : '*' ∈ (trimOrigin origin).toList ↔ '*' ∈ origin.toList :=
    mem_trimOrigin (by decide) (by decide)
  have htext : pyText env.toInterpreter (.str origin) = origin := rfl
  simp only [readOrigin, htext, hparsed, if_neg hnonempty, if_neg hport, hstrays, Bool.false_or,
    List.contains_iff_mem, hstar]

theorem trustedOrigins_fold {origins : List String}
    (h : ∀ origin ∈ origins, Acceptable env.tables ["http", "https"] origin)
    {config : Table} (hitems : listItems env config "MACHINEDECK_TRUSTED_ORIGINS" "server"
      "trusted_origins" localOrigins = origins.map .str) :
    ((∀ origin ∈ origins, '*' ∉ origin.toList) →
      trustedOrigins env config = .ok (firsts (origins.map trimOrigin))) ∧
    ((∃ origin ∈ origins, '*' ∈ origin.toList) → ∃ e, trustedOrigins env config = .error e) := by
  rw [trustedOrigins, hitems]
  constructor
  · intro hplain
    apply foldlM_addNew
    rw [List.forall₂_map_left_iff, List.forall₂_map_right_iff, List.forall₂_same]
    intro origin horigin seen
    rw [readOrigin_acceptable (h origin horigin), if_neg (hplain origin horigin)]
    rfl
  · rintro ⟨origin, horigin, hstar⟩
    apply foldlM_error (List.mem_map_of_mem horigin)
    intro seen
    rw [readOrigin_acceptable (h origin horigin), if_pos hstar]
    exact ⟨_, rfl⟩

/-! ### Networks -/

/-- Texts without blanks around them that pass as networks are read as these networks. -/
theorem networks_fold {name setting : String} {values : List String}
    (hstripped : ∀ value ∈ values, stripText value = value)
    (hvalid : validateNetworks name values = .ok ())
    {config : Table} {default : List String}
    (hitems : listItems env config setting "network" name default = values.map .str) :
    ∃ found, values.mapM ipNetwork = some found ∧
      networks env config setting name default = .ok (firsts found) := by
  have hread : ∀ value ∈ values, ∃ network, ipNetwork value = some network ∧
      readNetwork env name (.str value) = .ok network := by
    intro value hvalue
    have hpassed := forM_ok.mp hvalid value hvalue
    have htext : stripText (pyText env.toInterpreter (.str value)) = value := hstripped value hvalue
    cases hnetwork : ipNetwork value with
    | none =>
      rw [hnetwork] at hpassed
      cases hpassed
    | some network =>
      rw [hnetwork] at hpassed
      simp only at hpassed
      split_ifs at hpassed with hwide
      refine ⟨network, rfl, ?_⟩
      simp only [readNetwork, htext, hnetwork, if_neg hwide]
  have hall : ∃ found, values.mapM ipNetwork = some found ∧
      List.Forall₂ (fun value network => readNetwork env name (.str value) = .ok network)
        values found := by
    clear hstripped hvalid hitems
    induction values with
    | nil => exact ⟨[], rfl, List.Forall₂.nil⟩
    | cons value values ih =>
      obtain ⟨network, hnetwork, hfirst⟩ := hread value List.mem_cons_self
      obtain ⟨found, hfound, hrest⟩ := ih fun v hv => hread v (List.mem_cons_of_mem value hv)
      refine ⟨network :: found, ?_, List.Forall₂.cons hfirst hrest⟩
      rw [List.mapM_cons, hnetwork, hfound]
      rfl
  obtain ⟨found, hfound, hall⟩ := hall
  refine ⟨found, hfound, ?_⟩
  rw [networks, hitems]
  apply foldlM_addNew
  rw [List.forall₂_map_left_iff]
  exact hall.imp fun value network hnetwork seen => by
    rw [hnetwork]
    rfl

/-! ### The settings -/

/-- The same access as in the configuration; networks are compared as such, each of them once. -/
structure SameAccess (settings : Settings) (configuration : ServerConfiguration) : Prop where
  mode : settings.accessMode = configuration.mode
  host : settings.bindHost = configuration.host
  port : settings.bindPort = configuration.port
  origins : settings.trustedOrigins = configuration.trustedOrigins
  proxies : (configuration.trustedProxies.mapM ipNetwork).map firsts = some settings.trustedProxies
  networks :
    (configuration.trustedNetworks.mapM ipNetwork).map firsts = some settings.trustedNetworks

section Rendered

variable (configuration paths)

theorem value?_server (interp : Interpreter) (name : String) :
    value? (renderedTable interp paths configuration "auto") "server" name =
      (serverTable interp configuration).lookup name := rfl

theorem value?_network (interp : Interpreter) (name : String) :
    value? (renderedTable interp paths configuration "auto") "network" name =
      (networkTable configuration).lookup name := rfl

theorem value?_paths (interp : Interpreter) (name : String) :
    value? (renderedTable interp paths configuration "auto") "paths" name =
      (pathsTable paths).lookup name := rfl

/-- The modes and the hosts of installations. -/
def modeHosts : List (String × String) :=
  [("local", "127.0.0.1"), ("proxy", "127.0.0.1"), ("lan", "0.0.0.0")]

variable (hvars : NoVariables env) (hmode : (configuration.mode, configuration.host) ∈ modeHosts)
include hvars

theorem userUnitDir_rendered :
    userUnitDir env (renderedTable env.toInterpreter paths configuration "auto") =
      .ok (env.expanduser paths.userUnitDir) := by
  have hvalue : (pathsTable paths).lookup "user_unit_dir" = some (.str paths.userUnitDir) := rfl
  rw [userUnitDir, settingValue_file hvars (by decide), value?_paths, hvalue]
  rfl

theorem paths_rendered {setting name : String} (hsetting : setting ∈ settingVariables)
    {values : List String} (hvalue : (pathsTable paths).lookup name = some (strings values))
    (default : List String) (expand : String → String) :
    ∃ found, Config.paths env (renderedTable env.toInterpreter paths configuration "auto") setting
      name default expand = .ok found := by
  have hitems : Config.paths.values env
      (renderedTable env.toInterpreter paths configuration "auto") setting name default =
        values.map .str := by
    rw [Config.paths.values, hvars setting hsetting, value?_paths, hvalue]
    rfl
  have htexts : ∃ found, (values.map Toml.str).mapM (pathText env) = .ok found := by
    apply mapM_isOk
    intro value hmem
    obtain ⟨path, -, rfl⟩ := List.mem_map.mp hmem
    rw [pathText]
    split_ifs
    · exact ⟨none, rfl⟩
    · exact ⟨some path, rfl⟩
  obtain ⟨found, hfound⟩ := htexts
  rw [Config.paths, hitems, hfound]
  exact ⟨_, rfl⟩

theorem bindPort_rendered :
    bindPort env (renderedTable env.toInterpreter paths configuration "auto") = .ok 8080 := by
  obtain ⟨-, -, hport, -⟩ := serverTable_lookup env.toInterpreter configuration
  rw [bindPort, settingValue_file hvars (by decide), value?_server, hport]
  rfl

theorem cookieSecurity_rendered (mode : String) :
    cookieSecurity env (renderedTable env.toInterpreter paths configuration "auto") mode =
      .ok ("auto", mode == "proxy") := by
  have hvalue : value? (renderedTable env.toInterpreter paths configuration "auto") "security"
      "cookie_secure" = some (.str "auto") := rfl
  have hauto : cookieAlias (lower (stripText (pyText env.toInterpreter (.str "auto")))) =
      "auto" := by
    rw [show pyText env.toInterpreter (.str "auto") = "auto" from rfl]
    decide
  simp only [cookieSecurity, settingValue_file hvars (show "MACHINEDECK_COOKIE_SECURE" ∈ _ by decide),
    hvalue, Option.getD_some, hauto, if_true]

include hmode

theorem accessMode_rendered :
    accessMode env (renderedTable env.toInterpreter paths configuration "auto") =
      .ok configuration.mode := by
  have hwords : ∀ found ∈ modeHosts,
      lower (stripText found.1) = found.1 ∧ found.1 ∈ serverAccessModes := by decide
  obtain ⟨hlower, hknown⟩ := hwords _ hmode
  have htext : lower (stripText (pyText env.toInterpreter (.str configuration.mode))) =
      configuration.mode := hlower
  obtain ⟨hvalue, -⟩ := serverTable_lookup env.toInterpreter configuration
  simp only [accessMode, settingValue_file hvars (show "MACHINEDECK_ACCESS_MODE" ∈ _ by decide),
    value?_server, hvalue, Option.getD_some, htext, if_pos hknown]

theorem bindHost_rendered :
    bindHost env (renderedTable env.toInterpreter paths configuration "auto") configuration.mode =
      .ok configuration.host := by
  obtain ⟨-, hvalue, -⟩ := serverTable_lookup env.toInterpreter configuration
  have htext : stripText (pyText env.toInterpreter (.str configuration.host)) =
      stripText configuration.host := rfl
  rw [bindHost, settingValue_file hvars (by decide), value?_server, hvalue]
  simp only [Option.getD_some, htext]
  simp only [modeHosts, List.mem_cons, Prod.mk.injEq, List.not_mem_nil, or_false] at hmode
  rcases hmode with ⟨hmode, hhost⟩ | ⟨hmode, hhost⟩ | ⟨hmode, hhost⟩
  all_goals
    rw [hmode, hhost]
    decide +kernel

end Rendered

/-! ### Agreement -/

section

variable (paths) (hvars : NoVariables env) (h : Installed env.tables machine request configuration)
  (hvalid : Validated env.toInterpreter configuration)
include hvars h hvalid

theorem proxies_rendered : ∃ found, configuration.trustedProxies.mapM ipNetwork = some found ∧
    networks env (renderedTable env.toInterpreter paths configuration "auto")
      "MACHINEDECK_TRUSTED_PROXIES" "trusted_proxies" [] = .ok (firsts found) := by
  apply networks_fold _ hvalid.proxies (listItems_file hvars (by decide) (value?_network _ _ _ _) [])
  have hfixed : ∀ value ∈ ["127.0.0.1/32", "::1/128"], stripText value = value := by decide
  rw [h.proxies]
  split_ifs
  · intro value hvalue
    rw [mem_firsts] at hvalue
    rcases List.mem_append.mp (show value ∈ ["127.0.0.1/32", "::1/128"] ++ _ from hvalue) with
      hvalue | hvalue
    · exact hfixed value hvalue
    · obtain ⟨text, -, rfl⟩ := List.mem_map.mp hvalue
      exact stripText_stripText text
  · intro value hvalue
    obtain ⟨text, -, rfl⟩ := List.mem_map.mp hvalue
    exact stripText_stripText text

theorem networks_rendered : ∃ found, configuration.trustedNetworks.mapM ipNetwork = some found ∧
    networks env (renderedTable env.toInterpreter paths configuration "auto")
      "MACHINEDECK_TRUSTED_NETWORKS" "trusted_networks" defaultNetworks = .ok (firsts found) := by
  apply networks_fold _ hvalid.networks
    (listItems_file hvars (by decide) (value?_network _ _ _ _) defaultNetworks)
  have hfixed : ∀ value ∈ defaultNetworks, stripText value = value := by decide
  rw [h.networks]
  intro value hvalue
  rcases List.mem_append.mp (mem_firsts.mp hvalue) with hvalue | hvalue
  · exact hfixed value hvalue
  · obtain ⟨text, -, rfl⟩ := List.mem_map.mp hvalue
    exact stripText_stripText text

/-- Whether the settings are those of the rendered file depends on its origins alone. -/
theorem settingsOf_rendered :
    (∃ settings, settingsOf env (renderedTable env.toInterpreter paths configuration "auto") =
      .ok settings ∧ SameAccess settings configuration) ↔
      trustedOrigins env (renderedTable env.toInterpreter paths configuration "auto") =
        .ok configuration.trustedOrigins := by
  obtain ⟨proxies, hproxies, hreadProxies⟩ := proxies_rendered paths hvars h hvalid
  obtain ⟨trusted, htrusted, hreadTrusted⟩ := networks_rendered paths hvars h hvalid
  have hmode := accessMode_rendered configuration paths hvars h.mode
  have hhost := bindHost_rendered configuration paths hvars h.mode
  have hport := bindPort_rendered configuration paths hvars
  constructor
  · rintro ⟨settings, hsettings, hsame⟩
    rw [← hsame.origins]
    exact (settingsOf_ok hsettings).origins
  · intro horigins
    obtain ⟨settings, hsettings⟩ := settingsOf_isOk hmode
      ⟨_, cookieSecurity_rendered configuration paths hvars configuration.mode⟩ ⟨_, hreadProxies⟩ ⟨_, hreadTrusted⟩
      (paths_rendered configuration paths hvars (by decide) rfl _ _) (paths_rendered configuration paths hvars (by decide) rfl _ _)
      ⟨_, hhost⟩ ⟨_, hport⟩ ⟨_, userUnitDir_rendered configuration paths hvars⟩ ⟨_, horigins⟩
    have hloaded := settingsOf_ok hsettings
    have hsameMode : settings.accessMode = configuration.mode :=
      Except.ok.inj (hloaded.mode.symm.trans hmode)
    have hsameHost := hloaded.host
    rw [hsameMode, hhost] at hsameHost
    refine ⟨settings, hsettings, hsameMode, (Except.ok.inj hsameHost).symm, ?_, ?_, ?_, ?_⟩
    · rw [h.port]
      exact Except.ok.inj (hloaded.port.symm.trans hport)
    · exact Except.ok.inj (hloaded.origins.symm.trans horigins)
    · rw [hproxies]
      exact congrArg some (Except.ok.inj (hreadProxies.symm.trans hloaded.proxies))
    · rw [htrusted]
      exact congrArg some (Except.ok.inj (hreadTrusted.symm.trans hloaded.networks))

end

/-- What the server takes as it was meant: the file can be read, and its origins are exact and have
no blank in front of the slashes they end with. -/
structure Agreeable (tables : CaseTables) (machine : LanHost) (request : AccessRequest)
    (paths : InstallPaths) : Prop where
  readable : Readable tables machine request paths
  hosts : ∀ host ∈ lanHosts tables machine request, '*' ∉ host.toList
  exact : ∀ origin ∈ request.trustedOrigins, '*' ∉ origin.toList
  trimmed : ∀ origin ∈ request.trustedOrigins, trimOrigin (trimOrigin origin) = trimOrigin origin

theorem trimmed_iff (h : Installed env.tables machine request configuration) :
    (∀ origin ∈ configuration.trustedOrigins, trimOrigin origin = origin) ↔
      ∀ origin ∈ request.trustedOrigins, trimOrigin (trimOrigin origin) = trimOrigin origin := by
  have hlocal : ∀ origin ∈ localOrigins, trimOrigin origin = origin := by decide
  rw [h.origins]
  simp only [mem_firsts, List.forall_mem_append, List.forall_mem_map, trimOrigin_lanOrigin]
  simp only [implies_true, true_and]
  exact and_iff_right hlocal

theorem trustedOrigins_rendered (hvars : NoVariables env)
    (h : Installed env.tables machine request configuration)
    (hvalid : Validated env.toInterpreter configuration) :
    trustedOrigins env (renderedTable env.toInterpreter paths configuration "auto") =
        .ok configuration.trustedOrigins ↔
      (∀ origin ∈ configuration.trustedOrigins, '*' ∉ origin.toList) ∧
        ∀ origin ∈ configuration.trustedOrigins, trimOrigin origin = origin := by
  obtain ⟨-, -, -, -, horigins⟩ := serverTable_lookup env.toInterpreter configuration
  obtain ⟨hread, hrefused⟩ := trustedOrigins_fold hvalid.origins
    (listItems_file hvars (by decide)
      ((value?_server configuration paths env.toInterpreter _).trans horigins) localOrigins)
  constructor
  · intro hsame
    have hexact : ∀ origin ∈ configuration.trustedOrigins, '*' ∉ origin.toList := by
      by_contra hstar
      push Not at hstar
      obtain ⟨e, he⟩ := hrefused hstar
      rw [he] at hsame
      cases hsame
    rw [hread hexact] at hsame
    exact ⟨hexact, map_eq_self (Except.ok.inj hsame)⟩
  · rintro ⟨hexact, htrimmed⟩
    have hnodup : configuration.trustedOrigins.Nodup := by
      rw [h.origins]
      exact nodup_firsts _
    rw [hread hexact, List.map_congr_left htrimmed, List.map_id', firsts_of_nodup hnodup]

/-- **The server loads what the installer writes**, as it was meant, where the request is agreeable,
and only there. -/
theorem installed_config_loads {text : String} (hvars : NoVariables env)
    (haccess : accessConfiguration env.tables machine request = .ok configuration)
    (hrender : renderConfig env.toInterpreter paths configuration = .ok text) :
    (∃ settings, loadSettings env text = .ok settings ∧ SameAccess settings configuration) ↔
      Agreeable env.tables machine request paths := by
  have hinstalled := accessConfiguration_installed haccess
  have hvalid := validated_of_ok (renderConfig_ok hrender).1
  obtain ⟨hread, hrefused⟩ := loads_renderConfig hinstalled hrender
  have horigins := hinstalled.origins_without (c := '*') (by decide) (by decide) (by decide)
  by_cases hreadable : Readable env.tables machine request paths
  · rw [loadSettings, hread hreadable]
    simp only
    rw [settingsOf_rendered paths hvars hinstalled hvalid,
      trustedOrigins_rendered hvars hinstalled hvalid, horigins, trimmed_iff hinstalled]
    constructor
    · rintro ⟨⟨hhosts, hexact⟩, htrimmed⟩
      exact ⟨hreadable, hhosts, hexact, htrimmed⟩
    · rintro ⟨-, hhosts, hexact, htrimmed⟩
      exact ⟨⟨hhosts, hexact⟩, htrimmed⟩
  · rw [loadSettings, hrefused hreadable]
    constructor
    · rintro ⟨settings, hsettings, -⟩
      cases hsettings
    · exact fun hagreeable => absurd hagreeable.readable hreadable

end Agreement

/-! ### An installation that is loaded, and one that is not -/

def plainSurroundings : Surroundings where
  toInterpreter := plainInterpreter
  getenv _ := none
  backendRoot := "/opt/machinedeck/backend"
  projectParent := "/opt"
  projectGrandparent := "/"
  home := "/home/deck"
  expanduser path := path
  resolve path := path

theorem installed_config_loads_local :
    ∃ settings, loadSettings plainSurroundings (localFile []).text = .ok settings ∧
      SameAccess settings (localConfiguration []) := by
  have haccess : accessConfiguration plainInterpreter.tables bareHost { access := "local" } =
      .ok (localConfiguration []) := rfl
  have hvalid : validateServerConfiguration plainInterpreter (localConfiguration []) =
      .ok () := by decide +kernel
  have hagreeable : Agreeable plainInterpreter.tables bareHost { access := "local" } homePaths := by
    refine ⟨?_, by decide, by decide, by decide⟩
    constructor <;> decide
  have hvars : NoVariables plainSurroundings := fun _ _ => rfl
  exact (installed_config_loads hvars haccess (renderConfig_local hvalid)).mpr hagreeable

def patternOrigin : String := "https://*.example.com"

/-- The installer takes and writes a pattern, and the server refuses it. -/
theorem installed_pattern_refused :
    accessConfiguration plainInterpreter.tables bareHost
        { access := "local", trustedOrigins := [patternOrigin] } =
      .ok (localConfiguration [patternOrigin]) ∧
    renderConfig plainInterpreter homePaths (localConfiguration [patternOrigin]) =
      .ok (localFile [patternOrigin]).text ∧
    ∀ settings, loadSettings plainSurroundings (localFile [patternOrigin]).text ≠ .ok settings := by
  have haccess : accessConfiguration plainInterpreter.tables bareHost
      { access := "local", trustedOrigins := [patternOrigin] } =
        .ok (localConfiguration [patternOrigin]) := rfl
  have hvalid : validateServerConfiguration plainInterpreter (localConfiguration [patternOrigin]) =
      .ok () := by decide +kernel
  have hvars : NoVariables plainSurroundings := fun _ _ => rfl
  have hinstalled : Installed plainSurroundings.tables bareHost
      { access := "local", trustedOrigins := [patternOrigin] } (localConfiguration [patternOrigin]) :=
    accessConfiguration_installed haccess
  have hrender := renderConfig_local hvalid
  have hreadable : Readable plainInterpreter.tables bareHost
      { access := "local", trustedOrigins := [patternOrigin] } homePaths := by
    constructor <;> decide
  refine ⟨haccess, hrender, fun settings hsettings => ?_⟩
  rw [loadSettings, (loads_renderConfig hinstalled hrender).1 hreadable] at hsettings
  have horigins := (settingsOf_ok hsettings).origins
  obtain ⟨-, -, -, -, hvalue⟩ :=
    serverTable_lookup plainInterpreter (localConfiguration [patternOrigin])
  obtain ⟨e, he⟩ := (trustedOrigins_fold (validated_of_ok hvalid).origins
    (listItems_file hvars (by decide)
      ((value?_server (localConfiguration [patternOrigin]) homePaths plainInterpreter _).trans hvalue)
      localOrigins)).2 ⟨patternOrigin, by decide, by decide⟩
  have habsurd := he.symm.trans horigins
  cases habsurd

end MachineDeck.Config

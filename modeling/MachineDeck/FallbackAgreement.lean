import MachineDeck.ConfigRoundTrip
import MachineDeck.FallbackScan

/-!
# The two readers of the configuration

When the line scanner reads a rendered file as the TOML reader does.

* `SameSettings` — the six settings that both readers have;
* `Harmless` — assignments under which a configuration stays what it is;
* `Undisturbed` — no network is broken by a line boundary, and what line boundaries in the other
  texts leave is harmless;
* `fallback_agrees_iff` — the scanner agrees with the TOML reader there, and only there;
* `fallback_other_port` — an origin with line boundaries gives the scanner another port.
-/

namespace MachineDeck.Access

open IpAddress (ipAddress)
open LineText
open TomlText (Toml unlines)
open Traversals
open scoped LineText

structure SameSettings (found expected : ServerConfiguration) : Prop where
  mode : found.mode = expected.mode
  host : found.host = expected.host
  port : found.port = expected.port
  cookieSecure : found.cookieSecure = expected.cookieSecure
  trustedProxies : found.trustedProxies = expected.trustedProxies
  trustedNetworks : found.trustedNetworks = expected.trustedNetworks

/-- What is assigned in the table of the server, and what is assigned behind the last setting that
counts, changes nothing: the last of the assignments has the value that there was. -/
structure Harmless (interp : Interpreter) (configuration : ServerConfiguration)
    (server later : Assigned) : Prop where
  mode : ∀ v ∈ (later ++ server).lookup ("server", "mode"), pyText interp v = configuration.mode
  host : ∀ v ∈ (later ++ server).lookup ("server", "host"), pyText interp v = configuration.host
  port : ∀ v ∈ (later ++ server).lookup ("server", "port"), pyInt interp v = .ok configuration.port
  cookieSecure : ∀ v ∈ later.lookup ("security", "cookie_secure"), v = configuration.cookieSecure
  trustedProxies : ∀ v ∈ later.lookup ("network", "trusted_proxies"),
    (iterated v).map (List.map (pyText interp)) = some configuration.trustedProxies
  trustedNetworks : ∀ v ∈ later.lookup ("network", "trusted_networks"),
    (iterated v).map (List.map (pyText interp)) = some configuration.trustedNetworks

/-- No network has a line boundary in it, and what the line boundaries in the origins, in the host
that other machines reach and in the paths leave is harmless. -/
structure Undisturbed (interp : Interpreter) (limit : ℕ) (paths : InstallPaths)
    (configuration : ServerConfiguration) : Prop where
  trustedProxies : Unbroken configuration.trustedProxies
  trustedNetworks : Unbroken configuration.trustedNetworks
  strays : ∃ server state last,
    strayValues limit "server" (serverOthers interp configuration) = .ok server ∧
    strayValues limit "state" (stateOthers paths) = .ok state ∧
    strayValues limit "paths" (pathsOthers paths) = .ok last ∧
    Harmless interp configuration server (last ++ state)

/-! ### The configuration of the scanner -/

section Values

variable {interp : Interpreter} {configuration found : ServerConfiguration}
  {server state last : Assigned}

/-- Everything that the scanner finds in a file. -/
def allValues (configuration : ServerConfiguration) (server state last : Assigned) : Assigned :=
  last ++ (state ++ (middleValues configuration ++ (server ++ serverValues configuration)))

theorem lookup_server {key : String} {value : Toml}
    (hmiddle : (middleValues configuration).lookup ("server", key) = none)
    (hvalue : (serverValues configuration).lookup ("server", key) = some value) :
    (allValues configuration server state last).lookup ("server", key) =
      some (((last ++ state ++ server).lookup ("server", key)).getD value) := by
  simp only [allValues, List.lookup_append, hmiddle, hvalue]
  cases last.lookup ("server", key) <;> cases state.lookup ("server", key) <;>
    cases server.lookup ("server", key) <;> rfl

theorem lookup_middle {key : String × String} {value : Toml}
    (hvalue : (middleValues configuration).lookup key = some value) :
    (allValues configuration server state last).lookup key =
      some (((last ++ state).lookup key).getD value) := by
  simp only [allValues, List.lookup_append, hvalue]
  cases last.lookup key <;> cases state.lookup key <;> rfl

/-- A value, and what there is instead of it, are as wanted where what there is instead is. -/
theorem getD_iff {α : Type} {P : α → Prop} {value : α} (h : P value) (instead : Option α) :
    P (instead.getD value) ↔ ∀ v ∈ instead, P v := by
  cases instead with
  | none => simpa using h
  | some v => simp

theorem iterated_strings (values : List String) :
    (iterated (strings values)).map (List.map (pyText interp)) = some values :=
  congrArg some (map_str interp values)

/-- The values of the six settings. -/
structure Assigns (values : Assigned) (mode host port cookie proxies networks : Toml) : Prop where
  mode : values.lookup ("server", "mode") = some mode
  host : values.lookup ("server", "host") = some host
  port : values.lookup ("server", "port") = some port
  cookie : values.lookup ("security", "cookie_secure") = some cookie
  proxies : values.lookup ("network", "trusted_proxies") = some proxies
  networks : values.lookup ("network", "trusted_networks") = some networks

variable {values : Assigned} {mode host port cookie proxies networks : Toml}

theorem fallbackConfiguration_ok
    (h : Assigns values mode host port cookie proxies networks) :
    fallbackConfiguration interp values = .ok found ↔
      ∃ n xs ys, pyInt interp port = .ok n ∧ iterated proxies = some xs ∧
        iterated networks = some ys ∧
        found = { mode := pyText interp mode, host := pyText interp host, port := n,
                  cookieSecure := cookie, trustedProxies := xs.map (pyText interp),
                  trustedNetworks := ys.map (pyText interp) } := by
  simp only [fallbackConfiguration, h.mode, h.host, h.port, h.cookie, h.proxies, h.networks,
    Option.getD_some]
  cases hport : pyInt interp port with
  | error e => cases e <;> simp
  | ok n =>
    cases hproxies : iterated proxies with
    | none => simp
    | some xs =>
      cases hnetworks : iterated networks with
      | none => simp
      | some ys => simp [eq_comm]

/-- The scanner's configuration has the settings that are expected. -/
theorem fallbackConfiguration_same
    (h : Assigns values mode host port cookie proxies networks) :
    (∃ found, fallbackConfiguration interp values = .ok found ∧ SameSettings found configuration) ↔
      pyText interp mode = configuration.mode ∧ pyText interp host = configuration.host ∧
        pyInt interp port = .ok configuration.port ∧ cookie = configuration.cookieSecure ∧
        (iterated proxies).map (List.map (pyText interp)) = some configuration.trustedProxies ∧
        (iterated networks).map (List.map (pyText interp)) = some configuration.trustedNetworks := by
  simp only [fallbackConfiguration_ok h, Option.map_eq_some_iff]
  constructor
  · rintro ⟨_, ⟨n, xs, ys, hport, hproxies, hnetworks, rfl⟩, hsame⟩
    exact ⟨hsame.mode, hsame.host, hport.trans (congrArg _ hsame.port), hsame.cookieSecure,
      ⟨xs, hproxies, hsame.trustedProxies⟩, ⟨ys, hnetworks, hsame.trustedNetworks⟩⟩
  · rintro ⟨hmode, hhost, hport, hcookie, ⟨xs, hproxies, hxs⟩, ⟨ys, hnetworks, hys⟩⟩
    exact ⟨_, ⟨_, xs, ys, hport, hproxies, hnetworks, rfl⟩, ⟨hmode, hhost, rfl, hcookie, hxs, hys⟩⟩

/-- The configuration that a file comes to, with what its line boundaries leave. -/
theorem fallbackConfiguration_iff (hport : configuration.port = 8080)
    (hcookie : configuration.cookieSecure = .str "auto") :
    (∃ found, fallbackConfiguration interp (allValues configuration server state last) = .ok found ∧
      SameSettings found configuration) ↔
      Harmless interp configuration server (last ++ state) := by
  rw [fallbackConfiguration_same ⟨lookup_server rfl rfl, lookup_server rfl rfl,
    lookup_server rfl rfl, lookup_middle rfl, lookup_middle rfl, lookup_middle rfl⟩]
  rw [getD_iff (P := fun v => pyText interp v = configuration.mode) rfl,
    getD_iff (P := fun v => pyText interp v = configuration.host) rfl,
    getD_iff (P := fun v => pyInt interp v = .ok configuration.port) (by rw [hport]; rfl),
    getD_iff (P := fun v => v = configuration.cookieSecure) hcookie.symm,
    getD_iff (P := fun v => (iterated v).map (List.map (pyText interp)) =
      some configuration.trustedProxies) (iterated_strings _),
    getD_iff (P := fun v => (iterated v).map (List.map (pyText interp)) =
      some configuration.trustedNetworks) (iterated_strings _)]
  constructor
  · rintro ⟨hmode, hhost, hport, hcookie, hproxies, hnetworks⟩
    exact ⟨hmode, hhost, hport, hcookie, hproxies, hnetworks⟩
  · intro h
    exact ⟨h.mode, h.host, h.port, h.cookieSecure, h.trustedProxies, h.trustedNetworks⟩

theorem fallbackConfiguration_origins (h : fallbackConfiguration interp values = .ok found) :
    found.trustedOrigins = [] := by
  unfold fallbackConfiguration at h
  simp only at h
  split at h <;> cases h
  rfl

/-- Without origins, what is checked are these settings. -/
theorem validate_same (hvalid : validateServerConfiguration interp configuration = .ok ())
    (hsame : SameSettings found configuration) (horigins : found.trustedOrigins = []) :
    validateServerConfiguration interp found = .ok () := by
  unfold validateServerConfiguration at hvalid ⊢
  rw [hsame.mode, hsame.host, hsame.port, hsame.cookieSecure, hsame.trustedProxies,
    hsame.trustedNetworks, horigins]
  by_cases hmode : configuration.mode ∉ serverAccessModes
  · rw [if_pos hmode] at hvalid
    cases hvalid
  rw [if_neg hmode] at hvalid ⊢
  cases hhost : ipAddress configuration.host with
  | none =>
    rw [hhost] at hvalid
    cases hvalid
  | some address =>
    rw [hhost] at hvalid
    simp only at hvalid ⊢
    split_ifs at hvalid ⊢
    obtain ⟨_, -, hvalid⟩ := bind_ok hvalid
    exact hvalid

end Values

/-! ### The two readers -/

section Readers

variable {interp : Interpreter} {machine : LanHost} {request : AccessRequest} {paths : InstallPaths}
  {configuration : ServerConfiguration} {limit : ℕ} {text : String}

/-- The words of an installation end no line. -/
theorem installed_words (h : Installed interp.tables machine request configuration) :
    (∀ c ∈ configuration.mode.toList, rawBoundary c = false) ∧
      ∀ c ∈ configuration.host.toList, rawBoundary c = false := by
  have hwords : ∀ found ∈ [("local", "127.0.0.1"), ("proxy", "127.0.0.1"), ("lan", "0.0.0.0")],
      (∀ c ∈ found.1.toList, rawBoundary c = false) ∧
        ∀ c ∈ found.2.toList, rawBoundary c = false := by decide
  exact hwords _ h.mode

theorem minimal_rendered (h : Installed interp.tables machine request configuration)
    (hrender : renderConfig interp paths configuration = .ok text) :
    minimalServerConfiguration interp limit text =
      (scan limit {} ((renderLines interp paths configuration).flatMap scanned)).bind fun seen =>
        ((fallbackConfiguration interp seen.values).mapError .install).bind fun found =>
          ((validateServerConfiguration interp found).mapError .install).map fun _ => found := by
  obtain ⟨-, rfl⟩ := renderConfig_ok hrender
  have hreturn : ∀ line ∈ renderLines interp paths configuration, '\r' ∉ line := by
    rw [renderLines_eq h.port h.cookie]
    intro line hline
    obtain ⟨entry, hentry, rfl⟩ := List.mem_map.mp hline
    exact (Entry.oneLine (renderedEntries_sound interp paths configuration "auto" entry hentry)).2
  rw [minimalServerConfiguration, String.toList_ofList, splitlines_unlines hreturn]
  rfl

/-- A scan that ends well gives a configuration that passes, where it is the one that was written. -/
theorem minimal_scan (h : Installed interp.tables machine request configuration)
    (hrender : renderConfig interp paths configuration = .ok text) :
    (∃ found, minimalServerConfiguration interp limit text = .ok found ∧
      SameSettings found configuration) ↔
      ∃ values, (scan limit {} ((renderLines interp paths configuration).flatMap scanned)).map
          Scan.values = .ok values ∧
        ∃ found, fallbackConfiguration interp values = .ok found ∧
          SameSettings found configuration := by
  rw [minimal_rendered h hrender]
  cases scan limit {} ((renderLines interp paths configuration).flatMap scanned) with
  | error e =>
    constructor
    · rintro ⟨found, hfound, -⟩
      cases hfound
    · rintro ⟨values, hvalues, -⟩
      cases hvalues
  | ok seen =>
    show (∃ found, ((fallbackConfiguration interp seen.values).mapError FallbackError.install).bind
        (fun found => ((validateServerConfiguration interp found).mapError .install).map
          fun _ => found) = .ok found ∧ SameSettings found configuration) ↔
      ∃ values, Except.ok seen.values = Except.ok values ∧ _
    constructor
    · rintro ⟨found, hfound, hsame⟩
      refine ⟨seen.values, rfl, found, ?_, hsame⟩
      cases hread : fallbackConfiguration interp seen.values with
      | error e =>
        rw [hread] at hfound
        cases hfound
      | ok read =>
        rw [hread] at hfound
        change ((validateServerConfiguration interp read).mapError FallbackError.install).map _ =
          _ at hfound
        cases hchecked : validateServerConfiguration interp read with
        | error e =>
          rw [hchecked] at hfound
          cases hfound
        | ok _ =>
          rw [hchecked] at hfound
          cases hfound
          rfl
    · rintro ⟨values, hvalues, found, hfound, hsame⟩
      cases hvalues
      have hvalid := validate_same (renderConfig_ok hrender).1 hsame
        (fallbackConfiguration_origins hfound)
      refine ⟨found, ?_, hsame⟩
      rw [hfound]
      show ((validateServerConfiguration interp found).mapError FallbackError.install).map _ = _
      rw [hvalid]
      rfl

theorem renderedValues_ok {values : Assigned} :
    renderedValues interp paths configuration limit = .ok values ↔ ∃ server state last,
      strayValues limit "server" (serverOthers interp configuration) = .ok server ∧
      strayValues limit "state" (stateOthers paths) = .ok state ∧
      strayValues limit "paths" (pathsOthers paths) = .ok last ∧
      values = allValues configuration server state last := by
  constructor
  · intro h
    obtain ⟨server, hserver, h⟩ := bind_ok h
    obtain ⟨state, hstate, h⟩ := bind_ok h
    obtain ⟨last, hlast, h⟩ := bind_ok h
    cases h
    exact ⟨server, state, last, hserver, hstate, hlast, rfl⟩
  · rintro ⟨server, state, last, hserver, hstate, hlast, rfl⟩
    rw [renderedValues, hserver, hstate, hlast]
    rfl

/-- The scanner has the settings of the configuration that was written. -/
theorem minimal_iff (h : Installed interp.tables machine request configuration)
    (hrender : renderConfig interp paths configuration = .ok text) (hlimit : 1 ≤ limit) :
    (∃ found, minimalServerConfiguration interp limit text = .ok found ∧
      SameSettings found configuration) ↔ Undisturbed interp limit paths configuration := by
  obtain ⟨hmode, hhost⟩ := installed_words h
  rw [minimal_scan h hrender]
  constructor
  · rintro ⟨values, hvalues, hfound⟩
    have hplain : Unbroken configuration.trustedProxies ∧
        Unbroken configuration.trustedNetworks := by
      by_contra hbroken
      obtain ⟨e, he⟩ := scan_rendered_broken hlimit h.port h.cookie hmode hhost hbroken
      rw [he] at hvalues
      cases hvalues
    rw [scan_rendered hlimit h.port h.cookie hmode hhost hplain.1 hplain.2] at hvalues
    obtain ⟨server, state, last, hserver, hstate, hlast, rfl⟩ := renderedValues_ok.mp hvalues
    exact ⟨hplain.1, hplain.2, server, state, last, hserver, hstate, hlast,
      (fallbackConfiguration_iff h.port h.cookie).mp hfound⟩
  · rintro ⟨hproxies, hnetworks, server, state, last, hserver, hstate, hlast, hharmless⟩
    refine ⟨allValues configuration server state last, ?_,
      (fallbackConfiguration_iff h.port h.cookie).mpr hharmless⟩
    rw [scan_rendered hlimit h.port h.cookie hmode hhost hproxies hnetworks]
    exact renderedValues_ok.mpr ⟨server, state, last, hserver, hstate, hlast, rfl⟩

/-- A valid file is read by the TOML reader as it was meant. -/
theorem read_of_valid {file : ConfigFile}
    (haccess : accessConfiguration interp.tables machine request = .ok configuration)
    (hrender : renderConfig interp paths configuration = .ok file.text)
    (hvalid : TomlText.loads file.text ≠ none) :
    readServerConfiguration interp file = .ok configuration := by
  rw [config_round_trip haccess hrender]
  by_contra hnot
  exact hvalid ((loads_renderConfig (accessConfiguration_installed haccess) hrender).2 hnot)

/-- **The two readers agree** about a rendered file exactly where no line boundary of the scanner
disturbs it. -/
theorem fallback_agrees_iff {file : ConfigFile}
    (haccess : accessConfiguration interp.tables machine request = .ok configuration)
    (hrender : renderConfig interp paths configuration = .ok file.text)
    (hvalid : TomlText.loads file.text ≠ none) (hlimit : 1 ≤ limit) :
    (∃ found expected, minimalServerConfiguration interp limit file.text = .ok found ∧
      readServerConfiguration interp file = .ok expected ∧ SameSettings found expected) ↔
      Undisturbed interp limit paths configuration := by
  rw [← minimal_iff (accessConfiguration_installed haccess) hrender hlimit,
    read_of_valid haccess hrender hvalid]
  constructor
  · rintro ⟨found, expected, hfound, hexpected, hsame⟩
    cases hexpected
    exact ⟨found, hfound, hsame⟩
  · rintro ⟨found, hfound, hsame⟩
    exact ⟨found, configuration, hfound, rfl, hsame⟩

end Readers

/-! ### One installation on which the readers agree, and one on which they do not -/

theorem fallback_agrees_local :
    ∃ found expected,
      minimalServerConfiguration plainInterpreter 1000 (localFile []).text = .ok found ∧
      readServerConfiguration plainInterpreter (localFile []) = .ok expected ∧
      SameSettings found expected := by
  have haccess : accessConfiguration plainInterpreter.tables bareHost { access := "local" } =
      .ok (localConfiguration []) := rfl
  have hchecked : validateServerConfiguration plainInterpreter (localConfiguration []) =
      .ok () := by decide +kernel
  have hreadable : Readable plainInterpreter.tables bareHost { access := "local" } homePaths := by
    constructor <;> decide
  have hvalid : TomlText.loads (localFile []).text ≠ none := by
    rw [(loads_renderConfig (accessConfiguration_installed haccess)
      (renderConfig_local hchecked)).1 hreadable]
    exact Option.some_ne_none _
  have hserver : strayPieces (serverOthers plainInterpreter (localConfiguration [])) = [] := by decide
  have hstate : strayPieces (stateOthers homePaths) = [] := by decide
  have hlast : strayPieces (pathsOthers homePaths) = [] := by decide
  refine (fallback_agrees_iff haccess (renderConfig_local hchecked) hvalid (by decide)).mpr
    ⟨by decide, by decide, [], [], [], strayValues_nil hserver, strayValues_nil hstate,
      strayValues_nil hlast, ?_⟩
  constructor <;> simp

/-- An origin that has a setting between two line separators. -/
def portOrigin : String := "http://a\u2028port=9090\u2028b"

/-- The origin is accepted, the file is valid TOML, and the scanner does not read it as the TOML
reader does: it takes the port from the origin. -/
theorem fallback_other_port :
    accessConfiguration plainInterpreter.tables bareHost
        { access := "local", trustedOrigins := [portOrigin] } =
      .ok (localConfiguration [portOrigin]) ∧
    renderConfig plainInterpreter homePaths (localConfiguration [portOrigin]) =
      .ok (localFile [portOrigin]).text ∧
    readServerConfiguration plainInterpreter (localFile [portOrigin]) =
      .ok (localConfiguration [portOrigin]) ∧
    ¬ ∃ found, minimalServerConfiguration plainInterpreter 1000 (localFile [portOrigin]).text =
      .ok found ∧ SameSettings found (localConfiguration [portOrigin]) := by
  have haccess : accessConfiguration plainInterpreter.tables bareHost
      { access := "local", trustedOrigins := [portOrigin] } =
        .ok (localConfiguration [portOrigin]) := rfl
  have hchecked : validateServerConfiguration plainInterpreter (localConfiguration [portOrigin]) =
      .ok () := by decide +kernel
  have hrender := renderConfig_local hchecked
  have hinstalled := accessConfiguration_installed haccess
  have hreadable : Readable plainInterpreter.tables bareHost
      { access := "local", trustedOrigins := [portOrigin] } homePaths := by
    constructor <;> decide
  have hvalid : TomlText.loads (localFile [portOrigin]).text ≠ none := by
    rw [(loads_renderConfig hinstalled hrender).1 hreadable]
    exact Option.some_ne_none _
  refine ⟨haccess, hrender, read_of_valid haccess hrender hvalid, ?_⟩
  rw [minimal_iff hinstalled hrender (by decide)]
  have hpieces : strayPieces (serverOthers plainInterpreter (localConfiguration [portOrigin])) =
      ["port=9090".toList, "b\"]".toList] := by decide
  have hloads : JsonText.loads 1000 "9090" = .ok (.int 9090) :=
    JsonText.loads_of_runFor (n := 3) (by decide) rfl
  have hport : scanLine 1000 ⟨"server", []⟩ "port=9090".toList =
      .ok ⟨"server", [(("server", "port"), .int 9090)]⟩ := by
    rw [scanLine_pair (show classify "port=9090".toList = .pair "port" "9090" by decide)
      (by decide) (by decide), hloads]
    rfl
  have hrest (seen : Scan) : scanLine 1000 seen "b\"]".toList = .ok seen :=
    scanLine_ignored (by decide)
  have hstray : strayValues 1000 "server"
      (serverOthers plainInterpreter (localConfiguration [portOrigin])) =
        .ok [(("server", "port"), .int 9090)] := by
    rw [strayValues, hpieces]
    show ((scanLine 1000 ⟨"server", []⟩ "port=9090".toList).bind fun seen =>
      (scanLine 1000 seen "b\"]".toList).bind _).map Scan.values = _
    simp only [hport, hrest, Except.bind]
    rfl
  rintro ⟨-, -, server, state, last, hserver, hstate, hlast, hharmless⟩
  rw [hstray] at hserver
  rw [strayValues_nil (by decide)] at hstate hlast
  cases hserver
  cases hstate
  cases hlast
  exact absurd (hharmless.port (.int 9090) rfl) (by decide)


end MachineDeck.Access

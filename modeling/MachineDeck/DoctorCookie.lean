import MachineDeck.ConfigAgreement
import MachineDeck.ServerFile

/-!
# The Cookie policy that `doctor` reports

Whether the flag that `doctor` resolves from the configuration file is the one that the server
gives its session Cookie.

* `Parsed` — what both readers have from a file that the deployment script accepts;
* `doctor_cookie_iff` — they agree where the policy is in the file, where a file that is not empty
  has no table for it, and behind a proxy; and only there.
-/

namespace MachineDeck.Config

open Access
open IpAddress (ipAddress)
open LineText (isSpace strip stripBy)
open TomlText (Table Toml defines)
open Traversals
open scoped LineText

/-! ### Tables -/

theorem defines_iff (config : Table) (name : String) :
    defines config name = (config.lookup name).isSome := by
  induction config with
  | nil => rfl
  | cons entry config ih =>
    obtain ⟨key, value⟩ := entry
    rw [List.lookup_cons]
    by_cases hkey : name = key
    · simp [defines, hkey]
    · have hrest : (name == key) = false := beq_false_of_ne hkey
      have hother : (key == name) = false := beq_false_of_ne (Ne.symm hkey)
      rw [hrest, ← ih]
      simp [defines, hother]

theorem value?_of_tableOf {config : Table} {section' : String} {entries : Table}
    (h : tableOf config section' = some entries) (name : String) :
    value? config section' name = entries.lookup name := by
  unfold tableOf at h
  rw [value?]
  split at h
  · rename_i hnone
    cases h
    rw [hnone]
    rfl
  · rename_i hfound
    cases h
    rw [hfound]
  · cases h

/-- What the deployment script has taken from the tables of a file. -/
structure Parsed (interp : Interpreter) (data : Table) (configuration : ServerConfiguration) : Prop
    where
  mode : configuration.mode = lower (stripText (pyText interp
    ((value? data "server" "mode").getD (.str (if stripText (pyText interp
      ((value? data "server" "host").getD (.str "127.0.0.1"))) ∈ ["0.0.0.0", "::"] then "lan"
        else "local")))))
  cookie : configuration.cookieSecure = (value? data "security" "cookie_secure").getD (.bool true)
  cookieOk : cookieOk interp configuration.cookieSecure = true

theorem serverConfiguration_parsed {interp : Interpreter} {data : Table}
    {configuration : ServerConfiguration}
    (h : serverConfiguration interp data = .ok configuration) :
    Parsed interp data configuration := by
  unfold serverConfiguration at h
  cases hserver : tableOf data "server" with
  | none =>
    rw [hserver] at h
    cases h
  | some server =>
    cases hsecurity : tableOf data "security" with
    | none =>
      rw [hserver, hsecurity] at h
      cases h
    | some security =>
      rw [hserver, hsecurity] at h
      split at h
      · rename_i found security' network hfound hsame hnetwork
        cases hfound
        cases hsame
        simp only at h
        split at h
        · cases h
        · split at h
          · obtain ⟨port, -, h⟩ := bind_ok h
            obtain ⟨⟨⟩, hvalid, h⟩ := bind_ok h
            obtain rfl := Except.ok.inj h
            refine ⟨?_, ?_, (validated_of_ok hvalid).cookie⟩
            · rw [value?_of_tableOf hserver, value?_of_tableOf hserver]
              rfl
            · rw [value?_of_tableOf hsecurity]
              rfl
          · cases h
      · cases h

/-! ### The policy -/

/-- A text that is a word in lower case has no blanks around it. -/
theorem stripText_of_lower {value : String} (h : ∀ c ∈ (lower value).toList, isSpace c = false) :
    stripText value = value := by
  have hplain : ∀ c ∈ value.toList, isSpace c = false := by
    intro c hc
    have hlower := h c.toLower (by
      rw [lower, String.toList_ofList]
      exact List.mem_map_of_mem hc)
    by_contra hspace
    rw [LineText.toLower_space (Bool.of_not_eq_false hspace)] at hlower
    exact hspace hlower
  rw [stripText, strip, LineText.stripBy_of_plain hplain, String.ofList_toList]

/-- A policy of the file that is not a truth value, as each of them resolves it. -/
theorem cookie_word {interp : Interpreter} {value : Toml} (hvalue : ∀ b, value ≠ .bool b)
    (hok : cookieOk interp value = true) (mode : String) :
    lower (stripText (pyText interp value)) = lower (pyText interp value) ∧
      (let policy := lower (pyText interp value)
      (cookieAlias policy = "auto" ∨ cookieAlias policy = "secure" ∨
        cookieAlias policy = "insecure") ∧
      (if cookieAlias policy = "auto" then mode == "proxy" else cookieAlias policy == "secure") =
        (if policy = "auto" then mode == "proxy" else ["secure", "true"].contains policy)) := by
  have hword : lower (pyText interp value) ∈ ["auto", "secure", "insecure", "true", "false"] := by
    cases value with
    | bool b => exact absurd rfl (hvalue b)
    | _ => exact List.contains_iff_mem.mp hok
  have hplain : ∀ word ∈ ["auto", "secure", "insecure", "true", "false"],
      (∀ c ∈ word.toList, isSpace c = false) := by decide
  refine ⟨congrArg lower (stripText_of_lower (hplain _ hword)), ?_⟩
  generalize lower (pyText interp value) = policy at hword
  simp only [List.mem_cons, List.not_mem_nil, or_false] at hword
  rcases hword with rfl | rfl | rfl | rfl | rfl <;> exact ⟨by decide, rfl⟩

section Doctor

variable {env : Surroundings} {config : Table} {settings : Settings}
  {configuration : ServerConfiguration}

theorem doctorSecure_word {value : Toml} (hvalue : ∀ b, value ≠ .bool b)
    (h : configuration.cookieSecure = value) (interp : Interpreter) :
    doctorSecure interp configuration =
      (let policy := lower (pyText interp value)
      if policy = "auto" then configuration.mode == "proxy"
      else ["secure", "true"].contains policy) := by
  rw [doctorSecure, doctorPolicy, h]
  cases value with
  | bool b => exact absurd rfl (hvalue b)
  | _ => rfl

theorem doctorSecure_bool {b : Bool} (h : configuration.cookieSecure = .bool b)
    (interp : Interpreter) : doctorSecure interp configuration = b := by
  rw [doctorSecure, doctorPolicy, h]
  cases b <;> rfl

/-- The value of the file, or the default. -/
def cookieValue (config : Table) : Toml :=
  (value? config "security" "cookie_secure").getD
    (if !config.isEmpty && !defines config "security" then .bool true else .str "auto")

theorem cookieSecurity_bool (hvars : NoVariables env) {b : Bool} (h : cookieValue config = .bool b)
    (mode : String) :
    cookieSecurity env config mode = .ok (if b then "secure" else "insecure", b) := by
  rw [cookieSecurity, settingValue_file hvars (by decide)]
  rw [cookieValue] at h
  rw [h]
  cases b <;> rfl

theorem cookieSecurity_word (hvars : NoVariables env) {value : Toml} (hvalue : ∀ b, value ≠ .bool b)
    (h : cookieValue config = value) (mode : String) :
    cookieSecurity env config mode =
      (let normalized := cookieAlias (lower (stripText (pyText env.toInterpreter value)))
      if normalized = "auto" then .ok (normalized, mode == "proxy")
      else if normalized = "secure" ∨ normalized = "insecure" then
        .ok (normalized, normalized == "secure")
      else .error (.runtimeError
        "security.cookie_secure must be auto, secure, insecure, true, or false")) := by
  rw [cookieSecurity, settingValue_file hvars (by decide)]
  rw [cookieValue] at h
  rw [h]
  cases value with
  | bool b => exact absurd rfl (hvalue b)
  | _ => rfl

/-- A policy that both take from the same value comes to the same. -/
theorem cookie_shared (hvars : NoVariables env) (hloaded : Loaded env config settings)
    (hmode : settings.accessMode = configuration.mode)
    (hok : cookieOk env.toInterpreter configuration.cookieSecure = true)
    (hvalue : cookieValue config = configuration.cookieSecure) :
    doctorSecure env.toInterpreter configuration = settings.cookieSecure := by
  have hcookie := hloaded.cookie
  by_cases hbool : ∃ b, configuration.cookieSecure = .bool b
  · obtain ⟨b, hb⟩ := hbool
    rw [cookieSecurity_bool hvars (hvalue.trans hb)] at hcookie
    rw [doctorSecure_bool hb]
    exact (Prod.mk.inj (Except.ok.inj hcookie)).2
  · push Not at hbool
    obtain ⟨hstrip, hknown, hflag⟩ := cookie_word hbool hok configuration.mode
    rw [doctorSecure_word hbool rfl, ← hflag]
    rw [cookieSecurity_word hvars hbool hvalue, hstrip, hmode] at hcookie
    simp only at hcookie
    split_ifs at hcookie with hauto hpolicy
    · rw [if_pos hauto]
      exact (Prod.mk.inj (Except.ok.inj hcookie)).2
    · rw [if_neg hauto]
      exact (Prod.mk.inj (Except.ok.inj hcookie)).2

theorem accessMode_parsed (hvars : NoVariables env) {mode : String}
    (hmode : accessMode env config = .ok mode)
    (hparsed : Parsed env.toInterpreter config configuration) : mode = configuration.mode := by
  simp only [accessMode,
    settingValue_file hvars (show "MACHINEDECK_ACCESS_MODE" ∈ settingVariables by decide)] at hmode
  split_ifs at hmode
  all_goals
    rw [← Except.ok.inj hmode, hparsed.mode]
    simp only [*, if_true, if_false]

/-- **Doctor reports the flag that the server uses** where the file has a policy, where a file that
is not empty has no table of security, and behind a proxy; and only there. -/
theorem doctor_cookie_iff (hvars : NoVariables env) (hserver : settingsOf env config = .ok settings)
    (hdoctor : serverConfiguration env.toInterpreter config = .ok configuration) :
    doctorSecure env.toInterpreter configuration = settings.cookieSecure ↔
      value? config "security" "cookie_secure" ≠ none ∨
        (config ≠ [] ∧ config.lookup "security" = none) ∨ accessMode env config = .ok "proxy" := by
  have hloaded := settingsOf_ok hserver
  have hparsed := serverConfiguration_parsed hdoctor
  have hmode := accessMode_parsed hvars hloaded.mode hparsed
  cases hvalue : value? config "security" "cookie_secure" with
  | some value =>
    have hsame : cookieValue config = configuration.cookieSecure := by
      rw [hparsed.cookie, cookieValue, hvalue]
      rfl
    have hagree := cookie_shared hvars hloaded hmode hparsed.cookieOk hsame
    simp [hagree]
  | none =>
    have hreported : configuration.cookieSecure = .bool true := by
      rw [hparsed.cookie, hvalue]
      rfl
    rw [doctorSecure_bool hreported]
    have hcookie := hloaded.cookie
    by_cases hlegacy : config ≠ [] ∧ config.lookup "security" = none
    · have hserved : cookieValue config = .bool true := by
        rw [cookieValue, hvalue, defines_iff, hlegacy.2]
        simp [hlegacy.1]
      rw [cookieSecurity_bool hvars hserved] at hcookie
      have hsecure : true = settings.cookieSecure := (Prod.mk.inj (Except.ok.inj hcookie)).2
      exact iff_of_true hsecure (.inr (.inl hlegacy))
    · have hserved : cookieValue config = .str "auto" := by
        rw [cookieValue, hvalue, defines_iff, Option.getD_none, if_neg]
        intro hboth
        apply hlegacy
        simpa using hboth
      have hauto : cookieAlias (lower (stripText (pyText env.toInterpreter (.str "auto")))) =
          "auto" := by
        rw [show pyText env.toInterpreter (.str "auto") = "auto" from rfl]
        decide
      rw [cookieSecurity_word hvars (fun b h => by cases h) hserved, hauto] at hcookie
      have hsecure : (settings.accessMode == "proxy") = settings.cookieSecure :=
        (Prod.mk.inj (Except.ok.inj hcookie)).2
      rw [← hsecure, eq_comm, beq_iff_eq, hloaded.mode]
      constructor
      · exact fun hproxy => .inr (.inr (congrArg Except.ok hproxy))
      · rintro (hstated | hdefault | hproxy)
        · exact absurd rfl hstated
        · exact absurd hdefault hlegacy
        · exact Except.ok.inj hproxy

end Doctor

/-! ### A policy that both take from the file, and one that each of them adds -/

def statedConfig : Table := [("security", .table [("cookie_secure", .str "Secure")])]

theorem doctor_cookie_stated : ∃ settings configuration,
    settingsOf plainSurroundings statedConfig = .ok settings ∧
      serverConfiguration plainInterpreter statedConfig = .ok configuration ∧
      doctorSecure plainInterpreter configuration = settings.cookieSecure := by
  have hvars : NoVariables plainSurroundings := fun _ _ => rfl
  have hserver : (settingsOf plainSurroundings statedConfig).isOk = true := by decide +kernel
  have hdoctor : (serverConfiguration plainInterpreter statedConfig).isOk = true := by
    decide +kernel
  cases hsettings : settingsOf plainSurroundings statedConfig with
  | error e =>
    rw [hsettings] at hserver
    cases hserver
  | ok settings =>
    cases hconfiguration : serverConfiguration plainInterpreter statedConfig with
    | error e =>
      rw [hconfiguration] at hdoctor
      cases hdoctor
    | ok configuration =>
      have hstated : value? statedConfig "security" "cookie_secure" ≠ none := Option.some_ne_none _
      exact ⟨settings, configuration, rfl, rfl,
        (doctor_cookie_iff hvars hsettings hconfiguration).mpr (.inl hstated)⟩

/-- With an empty table of security the server leaves its Cookie insecure, and `doctor` reports it
as secure. -/
theorem doctor_cookie_misreported :
    (loadSettings plainSurroundings "[security]\n").map Settings.cookieSecure = .ok false ∧
      (readServerConfiguration plainInterpreter ⟨"config.toml", "[security]\n", ""⟩).map
        (doctorSecure plainInterpreter) = .ok true := by
  decide +kernel

end MachineDeck.Config

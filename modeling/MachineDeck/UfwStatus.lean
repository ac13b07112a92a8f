import MachineDeck.AccessConfiguration
import MachineDeck.RegexText
import MachineDeck.Traversals

/-!
# Reading the status of UFW

`assess_ufw_status` of `scripts/machinedeck_deploy.py`.

* `targetIncludesPort` — `_ufw_target_includes_port`;
* `ruleMatch`, `allowSources` — the lines that are taken for ALLOW rules, and their sources;
* `externalTrustedNetworks` — the trusted networks that are not loopback;
* `assessUfwStatus` — the verdict.
-/

namespace MachineDeck.Firewall

open Access (ServerConfiguration)
open IpAddress (CanonicalNetwork ipNetwork readLooseNetwork)
open LineText (isSpace partitionChars splitlines strip)
open PythonNumber (intOfText)
open RegexText

/-- Unicode's decimal digits, of which only ten are ASCII. -/
structure Numerals where
  value : Char → Option ℕ
  ascii : ∀ c, c.toNat < 128 → value c = PythonNumber.asciiDigit c

/-! ### Targets -/

/-- `.replace("(v6)", "")`. -/
def withoutV6 : List Char → List Char
  | '(' :: 'v' :: '6' :: ')' :: rest => withoutV6 rest
  | c :: rest => c :: withoutV6 rest
  | [] => []

/-- A range, or a single number. -/
def portsInclude (numerals : Numerals) (portText : List Char) (port : ℤ) : Bool :=
  match partitionChars ':' portText with
  | (start, some end_) =>
    match intOfText numerals.value start, intOfText numerals.value end_ with
    | some start, some end_ => decide (start ≤ port ∧ port ≤ end_)
    | _, _ => false
  | (_, none) => intOfText numerals.value portText == some port

def targetIncludesPort (numerals : Numerals) (target : List Char) (port : ℤ) : Bool :=
  let normalized := strip (withoutV6 (target.map Char.toLower))
  portsInclude numerals (partitionChars '/' normalized).1 port

/-! ### Lines -/

def blank : Pattern := .some isSpace

/-- `\[\s*\d+\]\s*`. -/
def numbering (numerals : Numerals) : Pattern :=
  .ofList [.one (· == '['), .many isSpace, .some fun c => (numerals.value c).isSome,
    .one (· == ']'), .many isSpace]

/-- `\S+(?:\s+\(v6\))?`. -/
def targetPattern : Pattern :=
  .seq (.some fun c => !isSpace c) (.optional (.seq blank (.textCaseless "(v6)")))

/-- `ALLOW(?:\s+IN)?\s+` and the source.  The source is read to the end of the line, with the
blanks there, as it is stripped afterwards. -/
def actionPattern : Pattern :=
  .ofList [.textCaseless "ALLOW", .optional (.seq blank (.textCaseless "IN")), blank,
    .group 2 (.some (· != '\n')), .finish]

def rulePattern (numerals : Numerals) : Pattern :=
  .ofList [.start, .many isSpace, .optional (numbering numerals), .group 1 targetPattern, blank,
    actionPattern]

/-- The target and the source of a line that is taken for a rule. -/
def ruleMatch (numerals : Numerals) (line : List Char) : Option (List Char × List Char) :=
  (run (fun _ => false) (rulePattern numerals) ⟨[], line, []⟩).head?.map fun found =>
    (found.matched 1, strip (found.matched 2))

/-- `source.split()[0]`. -/
def firstWord (text : List Char) : Option (List Char) :=
  match text.dropWhile isSpace with
  | [] => none
  | rest => some (rest.takeWhile fun c => !isSpace c)

/-- The exceptions that are not caught. -/
inductive ScanError where
  | indexError
  | valueError
  deriving DecidableEq, Repr

/-- `source.lower().startswith("anywhere")`. -/
def fromAnywhere (source : List Char) : Bool :=
  "anywhere".toList.isPrefixOf (source.map Char.toLower)

/-- What one line adds: whether it allows any source, and the networks. -/
def allowLine (numerals : Numerals) (port : ℤ) (found : Bool × List CanonicalNetwork)
    (line : String) : Except ScanError (Bool × List CanonicalNetwork) :=
  match ruleMatch numerals line.toList with
  | none => .ok found
  | some (target, source) =>
    if targetIncludesPort numerals target port = false then .ok found
    else if fromAnywhere source then .ok (true, found.2)
    else
      match firstWord source with
      | none => .error .indexError
      | some word =>
        match readLooseNetwork word with
        | none => .ok found
        | some network =>
          .ok (found.1, if network ∈ found.2 then found.2 else found.2 ++ [network])

def allowSources (numerals : Numerals) (output : String) (port : ℤ) :
    Except ScanError (Bool × List CanonicalNetwork) :=
  (splitlines output).foldlM (allowLine numerals port) (false, [])

/-! ### The verdict -/

def externalTrustedNetworks (configuration : ServerConfiguration) :
    Except ScanError (List CanonicalNetwork) := do
  let networks ← configuration.trustedNetworks.mapM fun value =>
    match ipNetwork value with
    | some network => .ok network
    | none => .error .valueError
  return networks.filter fun network => !network.isLoopback

def ufwSuggestion (configuration : ServerConfiguration) : Except ScanError (Option String) := do
  match ← externalTrustedNetworks configuration with
  | [] => return none
  | network :: _ =>
    return some s!"sudo ufw allow from {network.str} to any port {configuration.port} proto tcp"

/-- The texts behind the line feeds of a text. -/
def behindFeeds : List Char → List (List Char)
  | [] => []
  | c :: rest => if c = '\n' then rest :: behindFeeds rest else behindFeeds rest

/-- `^\s*Status:\s*(?P<status>active|inactive)` at the start of a line. -/
def statusPattern : Pattern :=
  .ofList [.many isSpace, .textCaseless "Status:", .many isSpace,
    .group 1 (.either (.textCaseless "active") (.textCaseless "inactive"))]

/-- `\s*$`: of the blanks that follow, one ends the line, or the text ends behind them. -/
def endsLine (rest : List Char) : Bool :=
  (rest.takeWhile isSpace).contains '\n' || (rest.dropWhile isSpace).isEmpty

/-- The word of the first line that states the status, in small letters. -/
def statusWord (text : List Char) : Option (List Char) :=
  (text :: behindFeeds text).findSome? fun start =>
    ((run (fun _ => false) statusPattern ⟨[], start, []⟩).find? fun found =>
      endsLine found.rest).map fun found => (found.matched 1).map Char.toLower

inductive FirewallStatus where
  | pass
  | warn
  | unknown
  deriving DecidableEq, Repr

structure FirewallAssessment where
  status : FirewallStatus
  detail : String
  deriving DecidableEq, Repr

def names (networks : List CanonicalNetwork) : String :=
  ", ".intercalate (networks.map CanonicalNetwork.str)

/-- The networks that no allowed source holds. -/
def missingNetworks (expected allowed : List CanonicalNetwork) : List CanonicalNetwork :=
  expected.filter fun network => !allowed.any fun source => network.subnetOf source

def passDetail (configuration : ServerConfiguration) (expected : List CanonicalNetwork) : String :=
  s!"UFW is active with subnet-scoped TCP port {configuration.port} " ++
    s!"allowance for {names expected}; " ++
    "this is a diagnostic, not proof of complete firewall safety"

def assessUfwStatus (numerals : Numerals) (output : String) (configuration : ServerConfiguration) :
    Except ScanError FirewallAssessment :=
  let normalized := strip output.toList
  match statusWord normalized with
  | none =>
    .ok ⟨.unknown, "UFW output could not be interpreted; firewall safety was not determined"⟩
  | some word =>
    if word = "inactive".toList then
      .ok ⟨.warn, "UFW is inactive while LAN mode listens on all IPv4 interfaces"⟩
    else do
      let (anywhere, allowedNetworks) ←
        allowSources numerals (String.ofList normalized) configuration.port
      let suggestion ← ufwSuggestion configuration
      if anywhere then
        let detail := s!"UFW permits TCP port {configuration.port} from Anywhere; " ++
          "the rule may expose every connected interface"
        return ⟨.warn, match suggestion with
          | some suggestion => s!"{detail}\nSuggested subnet-scoped rule: {suggestion}"
          | none => detail⟩
      let expected ← externalTrustedNetworks configuration
      if expected.isEmpty then
        return ⟨.warn, "No non-loopback trusted network is configured, so a scoped UFW rule " ++
          "cannot be evaluated"⟩
      let missing := missingNetworks expected allowedNetworks
      if missing.isEmpty = false then
        let detail := "No complete subnet-scoped UFW allowance was detected for TCP port " ++
          s!"{configuration.port}: {names missing}"
        return ⟨.warn, match suggestion with
          | some suggestion => s!"{detail}\nSuggested command: {suggestion}"
          | none => detail⟩
      return ⟨.pass, passDetail configuration expected⟩

/-! ### What a pass means -/

/-- The source of a line that is taken for a rule about the port. -/
def takenSource (numerals : Numerals) (port : ℤ) (line : String) : Option (List Char) :=
  match ruleMatch numerals line.toList with
  | some (target, source) => if targetIncludesPort numerals target port then some source else none
  | none => none

/-- The network that is read in a source. -/
def sourceNetwork (source : List Char) : Option CanonicalNetwork :=
  (firstWord source).bind readLooseNetwork

def statusLines (output : String) : List String :=
  splitlines (String.ofList (strip output.toList))

/-- The line does not let everyone in, and it does not break the scan. -/
def Narrow (numerals : Numerals) (port : ℤ) (line : String) : Prop :=
  ∀ source, takenSource numerals port line = some source →
    fromAnywhere source = false ∧ firstWord source ≠ none

/-- One of the lines is taken for a rule about the port with that network as its source. -/
def Admitted (numerals : Numerals) (port : ℤ) (lines : List String) (network : CanonicalNetwork) :
    Prop :=
  ∃ line ∈ lines, ∃ source, takenSource numerals port line = some source ∧
    sourceNetwork source = some network

variable {numerals : Numerals} {port : ℤ}

theorem allowLine_eq (found : Bool × List CanonicalNetwork) (line : String) :
    allowLine numerals port found line =
      match takenSource numerals port line with
      | none => .ok found
      | some source =>
        if fromAnywhere source then .ok (true, found.2)
        else
          match firstWord source with
          | none => .error .indexError
          | some word =>
            match readLooseNetwork word with
            | none => .ok found
            | some network =>
              .ok (found.1, if network ∈ found.2 then found.2 else found.2 ++ [network]) := by
  rw [allowLine, takenSource]
  cases ruleMatch numerals line.toList with
  | none => rfl
  | some rule =>
      obtain ⟨target, source⟩ := rule
      cases hport : targetIncludesPort numerals target port
      · simp [hport]
      · simp only [hport, Bool.true_eq_false, if_false, if_true]

/-- A line is passed over, lets everyone in, breaks the scan, or adds its network. -/
theorem allowLine_cases (numerals : Numerals) (port : ℤ) (anywhere : Bool) (networks : List CanonicalNetwork) (line : String) :
    (Narrow numerals port line ∧ ∃ found,
      allowLine numerals port (anywhere, networks) line = .ok (anywhere, found) ∧
      ∀ network, network ∈ found ↔ network ∈ networks ∨ Admitted numerals port [line] network) ∨
    (¬ Narrow numerals port line ∧
      ∀ found, allowLine numerals port (anywhere, networks) line ≠ .ok (false, found)) := by
  have hadmitted (network : CanonicalNetwork) : Admitted numerals port [line] network ↔
      ∃ source, takenSource numerals port line = some source ∧
        sourceNetwork source = some network := by
    rw [Admitted]
    simp only [List.mem_singleton, exists_eq_left]
  rw [allowLine_eq]
  simp only [hadmitted, Narrow]
  cases takenSource numerals port line with
  | none => exact Or.inl ⟨by simp, networks, rfl, by simp⟩
  | some source =>
      simp only [Option.some.injEq, forall_eq', exists_eq_left', sourceNetwork]
      by_cases hanywhere : fromAnywhere source = true
      · simp [hanywhere]
      simp only [hanywhere]
      cases hword : firstWord source with
      | none => simp
      | some word =>
          refine Or.inl ⟨by simp, ?_⟩
          rw [Option.bind_some]
          cases hnetwork : readLooseNetwork word with
          | none => exact ⟨networks, by simp [hnetwork], by simp⟩
          | some network =>
              simp only [Bool.false_eq_true, if_false, hnetwork]
              refine ⟨_, rfl, fun other => ?_⟩
              simp only [Option.some.injEq]
              split_ifs with hmem
              · constructor
                · exact Or.inl
                · rintro (h | rfl)
                  · exact h
                  · exact hmem
              · rw [List.mem_append, List.mem_singleton, eq_comm (a := other)]

theorem admitted_cons {line : String} {lines : List String} {network : CanonicalNetwork} :
    Admitted numerals port (line :: lines) network ↔
      Admitted numerals port [line] network ∨ Admitted numerals port lines network := by
  simp only [Admitted, List.mem_cons, List.not_mem_nil, or_false, exists_eq_or_imp,
    exists_eq_left]

/-- Once a rule from everywhere is found, it stays found. -/
theorem foldlM_anywhere {lines : List String} (networks found : List CanonicalNetwork) :
    lines.foldlM (allowLine numerals port) (true, networks) ≠ .ok (false, found) := by
  induction lines generalizing networks with
  | nil => intro h; cases h
  | cons line lines ih =>
      intro h
      rw [List.foldlM_cons] at h
      obtain ⟨⟨anywhere, networks'⟩, hnext, h⟩ := Traversals.bind_ok h
      cases anywhere with
      | true => exact ih networks' h
      | false =>
          rcases allowLine_cases numerals port true networks line with
            ⟨-, found', hfound, -⟩ | ⟨-, hnever⟩
          · rw [hnext] at hfound
            cases hfound
          · exact hnever networks' hnext

/-- The lines are scanned without a rule from everywhere exactly when none of them is one, and what
is found is what they admit. -/
theorem foldlM_allowLine (numerals : Numerals) (port : ℤ) (lines : List String)
    (networks : List CanonicalNetwork) :
    ((∀ line ∈ lines, Narrow numerals port line) ∧ ∃ found,
      lines.foldlM (allowLine numerals port) (false, networks) = .ok (false, found) ∧
      ∀ network, network ∈ found ↔ network ∈ networks ∨ Admitted numerals port lines network) ∨
    ((¬ ∀ line ∈ lines, Narrow numerals port line) ∧
      ∀ found, lines.foldlM (allowLine numerals port) (false, networks) ≠ .ok (false, found)) := by
  induction lines generalizing networks with
  | nil => exact Or.inl ⟨by simp, networks, rfl, by simp [Admitted]⟩
  | cons line lines ih =>
      rw [List.forall_mem_cons]
      rcases allowLine_cases numerals port false networks line with
        ⟨hline, next, hnext, hadds⟩ | ⟨hline, hnever⟩
      · have hfold : (line :: lines).foldlM (allowLine numerals port) (false, networks) =
            lines.foldlM (allowLine numerals port) (false, next) := by
          rw [List.foldlM_cons, hnext]
          rfl
        rw [hfold]
        rcases ih next with ⟨hlines, found, hfound, hall⟩ | ⟨hlines, hnever⟩
        · refine Or.inl ⟨⟨hline, hlines⟩, found, hfound, fun network => ?_⟩
          rw [hall, hadds, or_assoc, ← admitted_cons]
        · exact Or.inr ⟨fun h => hlines h.2, hnever⟩
      · refine Or.inr ⟨fun h => hline h.1, fun found h => ?_⟩
        rw [List.foldlM_cons] at h
        obtain ⟨⟨anywhere, next⟩, hnext, h⟩ := Traversals.bind_ok h
        cases anywhere with
        | true => exact foldlM_anywhere next found h
        | false => exact hnever next hnext

/-- What the listing and the configuration have to be for the verdict to be a pass. -/
structure Passes (numerals : Numerals) (output : String) (configuration : ServerConfiguration)
    (expected : List CanonicalNetwork) : Prop where
  active : ∃ word, statusWord (strip output.toList) = some word ∧ word ≠ "inactive".toList
  narrow : ∀ line ∈ statusLines output, Narrow numerals configuration.port line
  trusted : externalTrustedNetworks configuration = .ok expected
  nonempty : expected ≠ []
  admitted : ∀ network ∈ expected, ∃ source,
    Admitted numerals configuration.port (statusLines output) source ∧ network.subnetOf source

theorem missing_isEmpty {expected allowed : List CanonicalNetwork} :
    (missingNetworks expected allowed).isEmpty = true ↔
      ∀ network ∈ expected, ∃ source ∈ allowed, network.subnetOf source := by
  rw [List.isEmpty_iff, missingNetworks, List.filter_eq_nil_iff]
  simp

theorem assess_pass_iff (output : String) (configuration : ServerConfiguration) :
    (∃ detail, assessUfwStatus numerals output configuration = .ok ⟨.pass, detail⟩) ↔
      ∃ expected, Passes numerals output configuration expected := by
  constructor
  · rintro ⟨detail, h⟩
    unfold assessUfwStatus at h
    simp only at h
    split at h
    · cases h
    rename_i word hword
    split_ifs at h with hinactive
    · cases h
    obtain ⟨⟨anywhere, allowed⟩, hallowed, h⟩ := Traversals.bind_ok h
    obtain ⟨suggestion, -, h⟩ := Traversals.bind_ok h
    simp only at h
    split_ifs at h with hanywhere
    · cases h
    obtain ⟨expected, hexpected, h⟩ := Traversals.bind_ok h
    split_ifs at h with hempty hmissing
    · cases h
    · cases h
    have hanywhere' : anywhere = false := by simpa using hanywhere
    subst hanywhere'
    rcases foldlM_allowLine numerals configuration.port
      (statusLines output) [] with ⟨hnarrow, found, hfound, hall⟩ | ⟨-, hnever⟩
    · have hsame := hfound.symm.trans hallowed
      cases hsame
      have hmissing' := missing_isEmpty.mp (by simpa using hmissing)
      refine ⟨expected, ⟨word, hword, hinactive⟩, hnarrow, hexpected, by simpa using hempty, ?_⟩
      intro network hnetwork
      obtain ⟨source, hsource, hsub⟩ := hmissing' network hnetwork
      exact ⟨source, by simpa using (hall source).mp hsource, hsub⟩
    · exact absurd hallowed (hnever allowed)
  · rintro ⟨expected, h⟩
    obtain ⟨word, hword, hactive⟩ := h.active
    rcases foldlM_allowLine numerals configuration.port
      (statusLines output) [] with ⟨-, found, hfound, hall⟩ | ⟨hnarrow, -⟩
    · have hallowed : allowSources numerals (String.ofList (strip output.toList))
          configuration.port = .ok (false, found) := hfound
      have hmissing : (missingNetworks expected found).isEmpty = true := by
        rw [missing_isEmpty]
        intro network hnetwork
        obtain ⟨source, hsource, hsub⟩ := h.admitted network hnetwork
        exact ⟨source, (hall source).mpr (Or.inr hsource), hsub⟩
      obtain ⟨suggestion, hsuggestion⟩ : ∃ suggestion,
          ufwSuggestion configuration = .ok suggestion := by
        rw [ufwSuggestion, h.trusted]
        cases expected with
        | nil => exact ⟨_, rfl⟩
        | cons network expected => exact ⟨_, rfl⟩
      have hempty : expected.isEmpty = false := by simpa using h.nonempty
      unfold assessUfwStatus
      simp only [hword, if_neg hactive, hallowed, hsuggestion, h.trusted]
      refine ⟨passDetail configuration expected, ?_⟩
      show (if expected.isEmpty = true then _ else _) = _
      rw [hempty]
      show (if (missingNetworks expected found).isEmpty = false then _ else _) = _
      rw [hmissing]
      rfl
    · exact absurd h.narrow hnarrow

end MachineDeck.Firewall

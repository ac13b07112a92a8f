import MachineDeck.UfwRules

/-!
# A pass of the firewall check

What a pass of `assess_ufw_status` says about the rules of the listing, and when it is right.

* `PassSound` — every trusted network may reach the port, and not everyone may;
* `Overlooked` — a rule that lets everyone reach the port and that the code passes over;
* `Misread` — a line that the code takes for a rule about the TCP port and that is none;
* `pass_sound_iff` — these two are the ways in which a pass goes wrong.
-/

namespace MachineDeck.Firewall

open Access (ServerConfiguration)
open IpAddress (CanonicalNetwork readLooseNetwork)
open LineText (isSpace splitlines strip)
open scoped LineText

def Source.holds (network : CanonicalNetwork) : Source → Prop
  | .anywhere => True
  | .network source => network.subnetOf source

def rules (output : String) : List Rule :=
  (statusLines output).filterMap fun line => readRule line.toList

/-- A trusted network may reach the port by one of the rules. -/
def Reaches (output : String) (port : ℤ) (network : CanonicalNetwork) : Prop :=
  ∃ rule ∈ rules output, rule.target.covers port ∧ rule.source.holds network

/-- A pass means that the trusted networks may reach the port, and that not everyone may. -/
def PassSound (numerals : Numerals) (output : String) (configuration : ServerConfiguration) : Prop :=
  ∀ detail, assessUfwStatus numerals output configuration = .ok ⟨.pass, detail⟩ →
    (∀ expected, externalTrustedNetworks configuration = .ok expected →
      ∀ network ∈ expected, Reaches output configuration.port network) ∧
    ∀ rule ∈ rules output, rule.target.covers configuration.port → rule.source ≠ .anywhere

/-! ### The ways to go wrong -/

/-- Everyone may reach the port by a rule whose target is `Anywhere` or a list. -/
def Overlooked (output : String) (port : ℤ) : Prop :=
  ∃ rule ∈ rules output, rule.source = .anywhere ∧ rule.target.covers port ∧
    ∀ range protocol, rule.target ≠ .ports [range] protocol

/-- The line is taken for a rule about the port, but it is none, or one about UDP. -/
def Misread (numerals : Numerals) (port : ℤ) (line : String) (source : CanonicalNetwork) : Prop :=
  (∃ text, takenSource numerals port line = some text ∧ sourceNetwork text = some source) ∧
    ∀ rule, readRule line.toList = some rule → ∃ range, rule.target = .ports [range] (some .udp)

variable {numerals : Numerals} {port : ℤ}

theorem line_feedless {output line : String} (h : line ∈ statusLines output) :
    '\n' ∉ line.toList := by
  intro hmem
  exact absurd (LineText.splitlines_plain h _ hmem) (by decide)

theorem firstWord_eq (text : List Char) : firstWord text =
    if text.dropWhile isSpace = [] then none
    else some ((text.dropWhile isSpace).takeWhile fun c => !isSpace c) := by
  unfold firstWord
  split
  · rename_i hnone
    rw [if_pos hnone]
  · rename_i hsome
    rw [if_neg hsome]

/-- The first word is the same in the stripped text. -/
theorem firstWord_strip (text : List Char) : firstWord (strip text) = firstWord text := by
  have hsplit : strip text ++ (text.dropWhile isSpace).rtakeWhile isSpace =
      text.dropWhile isSpace := List.rdropWhile_append_rtakeWhile
  have hblanks : ((text.dropWhile isSpace).rtakeWhile isSpace).takeWhile (fun c => !isSpace c) =
      [] := by
    cases hback : (text.dropWhile isSpace).rtakeWhile isSpace with
    | nil => rfl
    | cons c cs =>
        have hc : isSpace c = true :=
          List.mem_rtakeWhile_imp (by rw [hback]; exact List.mem_cons_self)
        exact List.takeWhile_cons_of_neg (by simp [hc])
  have hword : (text.dropWhile isSpace).takeWhile (fun c => !isSpace c) =
      (strip text).takeWhile fun c => !isSpace c := by
    rw [← hsplit, List.takeWhile_append, hblanks, List.append_nil]
    split_ifs with hall
    · exact ((List.takeWhile_prefix _).eq_of_length hall).symm
    · rfl
  have hnone : strip text = [] ↔ text.dropWhile isSpace = [] := by
    constructor
    · intro hstrip
      have hall := List.rdropWhile_eq_nil_iff.mp hstrip
      have hhead := dropWhile_head text
      cases hfront : text.dropWhile isSpace with
      | nil => rfl
      | cons c cs =>
          rw [hfront] at hall hhead
          have hc : isSpace c = false := hhead
          rw [hall c List.mem_cons_self] at hc
          cases hc
    · intro hfront
      rw [strip, LineText.stripBy, hfront]
      rfl
  rw [firstWord_eq, firstWord_eq, strip, LineText.dropWhile_stripBy, ← strip, hword]
  simp only [hnone]

theorem readSource_anywhere {text : List Char} (h : readSource text = some .anywhere) :
    fromAnywhere (strip text) = true := by
  obtain ⟨word, hword, h⟩ := Option.bind_eq_some_iff.mp h
  split_ifs at h with hanywhere
  · rw [← firstWord_strip, firstWord_eq] at hword
    split_ifs at hword with hnone
    cases hword
    rw [strip, LineText.dropWhile_stripBy, ← strip] at hanywhere
    have hsplit := List.takeWhile_append_dropWhile (p := fun c => !isSpace c) (l := strip text)
    rw [hanywhere] at hsplit
    rw [fromAnywhere, ← hsplit, List.map_append]
    exact List.isPrefixOf_iff_prefix.mpr (List.prefix_append "anywhere".toList _)
  · obtain ⟨found, -, heq⟩ := Option.map_eq_some_iff.mp h
    cases heq

theorem readSource_network {text : List Char} {network : CanonicalNetwork}
    (h : readSource text = some (.network network)) :
    sourceNetwork (strip text) = some network := by
  obtain ⟨word, hword, h⟩ := Option.bind_eq_some_iff.mp h
  split_ifs at h with hanywhere
  · cases h
  · obtain ⟨found, hfound, heq⟩ := Option.map_eq_some_iff.mp h
    cases heq
    rw [sourceNetwork, firstWord_strip, hword, Option.bind_some, hfound]

/-- A line that is a rule is taken for a rule about the port exactly when it names one range that
holds the port. -/
theorem takenSource_rule (numerals : Numerals) (port : ℤ) {output line : String} {rule : Rule} (hline : line ∈ statusLines output)
    (h : readRule line.toList = some rule) :
    ∃ text, readSource text = some rule.source ∧ ∀ source,
      takenSource numerals port line = some source ↔ source = strip text ∧
        ∃ range protocol, rule.target = .ports [range] protocol ∧ Holds range port := by
  obtain ⟨word, tail, text, hmatch, htail, htarget, hsource⟩ :=
    ruleMatch_of_readRule numerals h (line_feedless hline)
  refine ⟨text, hsource, fun source => ?_⟩
  rw [takenSource, hmatch, ← targetIncludesPort_iff numerals port htarget htail]
  simp only
  split_ifs with hport
  · simp [hport, eq_comm]
  · simp [hport]

/-- A rule for one range of ports that holds the port, and not for UDP alone, covers it. -/
theorem covers_single {range : ℕ × ℕ} {protocol : Option Protocol} (h : Holds range port)
    (hprotocol : protocol ≠ some .udp) : (Target.ports [range] protocol).covers port :=
  ⟨hprotocol, range, List.mem_singleton_self range, h⟩

theorem mem_rules {output : String} {rule : Rule} :
    rule ∈ rules output ↔ ∃ line ∈ statusLines output, readRule line.toList = some rule :=
  List.mem_filterMap

/-- Where no line is taken for a rule from everywhere, only an overlooked rule is one. -/
theorem anywhere_iff {output : String}
    (hnarrow : ∀ line ∈ statusLines output, Narrow numerals port line) :
    (∀ rule ∈ rules output, rule.target.covers port → rule.source ≠ .anywhere) ↔
      ¬ Overlooked output port := by
  constructor
  · rintro h ⟨rule, hrule, hanywhere, hcovers, -⟩
    exact h rule hrule hcovers hanywhere
  · intro h rule hrule hcovers hanywhere
    refine h ⟨rule, hrule, hanywhere, hcovers, ?_⟩
    intro range protocol htarget
    obtain ⟨line, hline, hread⟩ := mem_rules.mp hrule
    obtain ⟨text, hsource, htaken⟩ := takenSource_rule numerals port hline
      hread
    rw [hanywhere] at hsource
    have hholds : Holds range port := by
      rw [htarget] at hcovers
      obtain ⟨-, other, hother, hholds⟩ := hcovers
      rwa [List.mem_singleton.mp hother] at hholds
    have hfound := (htaken (strip text)).mpr ⟨rfl, range, protocol, htarget, hholds⟩
    have hnot := (hnarrow line hline (strip text) hfound).1
    rw [readSource_anywhere hsource] at hnot
    cases hnot

/-- What is admitted by a line that is not misread reaches the port. -/
theorem reaches_of_admitted {output : String} {network source : CanonicalNetwork}
    (hadmitted : Admitted numerals port (statusLines output) source)
    (hsub : network.subnetOf source) :
    Reaches output port network ∨
      ∃ line ∈ statusLines output, Misread numerals port line source := by
  obtain ⟨line, hline, text, htaken, hsource⟩ := hadmitted
  by_cases hread : ∃ rule, readRule line.toList = some rule ∧
      ∀ range, rule.target ≠ .ports [range] (some .udp)
  · obtain ⟨rule, hrule, hudp⟩ := hread
    obtain ⟨written, hwritten, hiff⟩ := takenSource_rule numerals port hline
      hrule
    obtain ⟨rfl, range, protocol, htarget, hholds⟩ := (hiff text).mp htaken
    refine Or.inl ⟨rule, mem_rules.mpr ⟨line, hline, hrule⟩, ?_, ?_⟩
    · rw [htarget]
      refine covers_single hholds ?_
      rintro rfl
      exact hudp range htarget
    · cases hkind : rule.source with
      | anywhere => exact trivial
      | network found =>
          rw [hkind] at hwritten
          rw [readSource_network hwritten] at hsource
          cases hsource
          exact hsub
  · refine Or.inr ⟨line, hline, ⟨text, htaken, hsource⟩, fun rule hrule => ?_⟩
    by_contra hnone
    exact hread ⟨rule, hrule, fun range htarget => hnone ⟨range, htarget⟩⟩

/-- A pass is right exactly when no rule from everywhere is overlooked, and what misread lines admit
may reach the port all the same. -/
theorem pass_sound_iff (numerals : Numerals) (output : String)
    (configuration : ServerConfiguration) :
    PassSound numerals output configuration ↔
      ∀ expected, Passes numerals output configuration expected →
        ¬ Overlooked output configuration.port ∧
        ∀ network ∈ expected, (∃ line ∈ statusLines output, ∃ source,
          Misread numerals configuration.port line source ∧ network.subnetOf source) →
            Reaches output configuration.port network := by
  constructor
  · intro h expected hpasses
    obtain ⟨detail, hpass⟩ := (assess_pass_iff output configuration).mpr ⟨expected, hpasses⟩
    obtain ⟨hreaches, hanywhere⟩ := h detail hpass
    exact ⟨(anywhere_iff hpasses.narrow).mp hanywhere,
      fun network hnetwork _ => hreaches expected hpasses.trusted network hnetwork⟩
  · intro h detail hpass
    obtain ⟨expected, hpasses⟩ := (assess_pass_iff output configuration).mp ⟨detail, hpass⟩
    obtain ⟨hoverlooked, hmisread⟩ := h expected hpasses
    refine ⟨fun found hfound network hnetwork => ?_, (anywhere_iff hpasses.narrow).mpr hoverlooked⟩
    have hsame := hpasses.trusted.symm.trans hfound
    cases hsame
    obtain ⟨source, hadmitted, hsub⟩ := hpasses.admitted network hnetwork
    rcases reaches_of_admitted hadmitted hsub with hreaches | ⟨line, hline, hline'⟩
    · exact hreaches
    · exact hmisread network hnetwork ⟨line, hline, source, hline', hsub⟩

/-! ### A pass with an open port -/

def asciiNumerals : Numerals where
  value := PythonNumber.asciiDigit
  ascii _ _ := rfl

def lan : ServerConfiguration where
  mode := "lan"
  host := "0.0.0.0"
  port := 8080
  cookieSecure := .str "auto"
  trustedOrigins := ["http://192.168.1.10:8080"]
  trustedNetworks := ["127.0.0.0/8", "::1/128", "192.168.1.0/24"]

/-- The first rule is for the trusted network, the second one lets everyone reach every port. -/
def openListing : String :=
  "Status: active\n8080/tcp ALLOW 192.168.1.0/24\nAnywhere ALLOW Anywhere\n"

theorem openListing_passes :
    (assessUfwStatus asciiNumerals openListing lan).toOption.map FirewallAssessment.status =
      some .pass := by
  decide +kernel

/-- A port that is open to everyone passes. -/
theorem open_port_passes : ¬ PassSound asciiNumerals openListing lan := by
  intro h
  have hpass := openListing_passes
  cases hassess : assessUfwStatus asciiNumerals openListing lan with
  | error e =>
      rw [hassess] at hpass
      cases hpass
  | ok assessment =>
      obtain ⟨status, detail⟩ := assessment
      rw [hassess] at hpass
      cases Option.some.inj hpass
      have hmem : (⟨.anywhere, .anywhere⟩ : Rule) ∈ rules openListing := by decide +kernel
      exact (h detail hassess).2 _ hmem trivial rfl

end MachineDeck.Firewall

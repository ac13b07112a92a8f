import MachineDeck.ComposeStatus
import MachineDeck.JsonExtent
import MachineDeck.Utf8Cut

/-!
# What Docker Compose prints besides its answer

`run_command` joins the standard output of a command and its standard error in one text.  Here is
what `DockerComposeAdapter.status` makes of `docker compose ps` where the command prints warnings.

* `Printed` — the two forms of the answer, an array or one object on each line;
* `answers_silent` — without warnings the answer is read as the containers that were printed;
* `psContainers_broken` — several objects, one of them with a line boundary of `str.splitlines`
  inside, are never read;
* `noisy_array`, `noisy_lines`, `noisy_nothing` — with a warning something else is read;
* `same_state_iff` — when two answers give the same state.
-/

namespace MachineDeck.Runtime

open JsonText (Json LoadsError loads)
open LineText (isSpace strip pieces lineBoundary)
open scoped LineText
open Lifecycle (AdapterResult)
open Logs (ComposePlatform PyError asObject psContainers)

/-! ### The answer -/

/-- How `docker compose ps --format json` prints containers. -/
inductive Printed where
  | array (text : String)
  | lines (texts : List String)

/-- Every line is ended; of no containers nothing is printed. -/
def Printed.text : Printed → String
  | .array text => text
  | .lines texts => "\n".intercalate (texts ++ [""])

structure PrintsLine (limit : ℕ) (text : String) (c : Container) : Prop where
  loads_eq : loads limit text = .ok c.json
  bare : strip text.toList = text.toList
  newline : '\n' ∉ text.toList
  carriage : '\r' ∉ text.toList

/-- The text prints the containers, an array with or without blanks around it. -/
def Printed.Of (limit : ℕ) (containers : List Container) : Printed → Prop
  | .array text =>
    loads limit (String.ofList (strip text.toList)) = .ok (.arr (containers.map Container.json))
  | .lines texts => List.Forall₂ (PrintsLine limit) texts containers

/-- Several objects, one of them with a line boundary inside. -/
def Printed.Broken : Printed → Prop
  | .array _ => False
  | .lines texts => 2 ≤ texts.length ∧ ∃ text ∈ texts, ∃ c ∈ text.toList, lineBoundary c = true

/-- The result of a command that exits with zero. -/
def Printed.answer (printed : Printed) (stderr : List UInt8) : AdapterResult :=
  runCommand (.exited 0 (Utf8Text.encode printed.text.toList) stderr)

/-- The standard error holds nothing but blanks. -/
def Silent (stderr : List UInt8) : Prop := ∀ c ∈ (Utf8Text.decode stderr).toList, isSpace c = true

theorem Printed.answer_succeeded (printed : Printed) (stderr : List UInt8) :
    (printed.answer stderr).succeeded = true := rfl

theorem Printed.answer_message (printed : Printed) (stderr : List UInt8) :
    (printed.answer stderr).message =
      String.ofList (strip (printed.text.toList ++ (Utf8Text.decode stderr).toList)) := by
  have hdecode : (Utf8Text.decode (Utf8Text.encode printed.text.toList ++ stderr)).toList =
      printed.text.toList ++ (Utf8Text.decode stderr).toList := by
    rw [Utf8Text.decode, Utf8Text.decode, String.toList_ofList, String.toList_ofList,
      Utf8Text.decodeFrom_encode]
  rw [Printed.answer, runCommand, hdecode]

/-! ### Two states -/

/-- Both calls return, and the states have one status and the same metadata. -/
def SameState (r r' : Except PyError RuntimeState) : Prop :=
  ∃ s s', r = .ok s ∧ r' = .ok s' ∧ s.status = s'.status ∧ s.metadata = s'.metadata

/-- Nothing but objects, whose exit codes are read as far as one that counts. -/
def Countable (platform : ComposePlatform) (containers : List Json) : Prop :=
  ∃ items failed, containers.mapM asObject = .ok items ∧ anyFailed platform items = .ok failed

/-- Two texts are read as the same containers, or both as none. -/
def ReadAlike (platform : ComposePlatform) (message message' : String) : Prop :=
  ∃ found, psContainers platform message = .ok found ∧ psContainers platform message' = .ok found ∧
    ∀ containers, found = some containers → Countable platform containers

theorem SameState.symm {r r' : Except PyError RuntimeState} (h : SameState r r') :
    SameState r' r := by
  obtain ⟨s, s', hs, hs', hstatus, hmetadata⟩ := h
  exact ⟨s', s, hs', hs, hstatus.symm, hmetadata.symm⟩

section States

variable {platform : ComposePlatform} {result result' : AdapterResult}

theorem status_none (self : DockerComposeAdapter) (hsucceeded : result.succeeded = true)
    (hmessage : result.message ≠ "") (hread : psContainers platform result.message = .ok none) :
    self.status platform result =
      .ok { status := .unknown
            runtimeIdentifier := self.identifier
            errorMessage := some "Docker Compose returned invalid JSON" } := by
  rw [DockerComposeAdapter.status, if_neg (by rw [hsucceeded]; exact Bool.noConfusion),
    if_neg hmessage, hread]
  rfl

theorem status_some (self : DockerComposeAdapter) (hsucceeded : result.succeeded = true)
    (hmessage : result.message ≠ "") {containers : List Json}
    (hread : psContainers platform result.message = .ok (some containers))
    {items : List (List (String × Json))} (hitems : containers.mapM asObject = .ok items)
    {failed : Bool} (hfailed : anyFailed platform items = .ok failed) :
    self.status platform result =
      .ok { status := classify (items.map (stateText platform)) (items.map (healthText platform))
              failed
            runtimeIdentifier := self.identifier
            metadata := [("containers", .arr containers)] } := by
  rw [DockerComposeAdapter.status, if_neg (by rw [hsucceeded]; exact Bool.noConfusion),
    if_neg hmessage, hread]
  simp only [bind, Except.bind, hitems, hfailed]
  rfl

/-- Every state that is read from an answer that is not empty. -/
theorem status_inv (self : DockerComposeAdapter) (hsucceeded : result.succeeded = true)
    (hmessage : result.message ≠ "") {s : RuntimeState} (h : self.status platform result = .ok s) :
    psContainers platform result.message = .ok none ∧ s.status = .unknown ∧ s.metadata = [] ∨
      ∃ containers, psContainers platform result.message = .ok (some containers) ∧
        Countable platform containers ∧ s.metadata = [("containers", .arr containers)] := by
  cases hread : psContainers platform result.message with
  | error e =>
      rw [DockerComposeAdapter.status, if_neg (by rw [hsucceeded]; exact Bool.noConfusion),
        if_neg hmessage, hread] at h
      cases h
  | ok found =>
      cases found with
      | none =>
          rw [status_none self hsucceeded hmessage hread] at h
          cases h
          exact .inl ⟨rfl, rfl, rfl⟩
      | some containers =>
          have hcount : Countable platform containers := by
            rw [DockerComposeAdapter.status, if_neg (by rw [hsucceeded]; exact Bool.noConfusion),
              if_neg hmessage, hread] at h
            change (containers.mapM asObject >>= _) = _ at h
            obtain ⟨items, hitems, h⟩ := Traversals.bind_ok h
            obtain ⟨failed, hfailed, -⟩ := Traversals.bind_ok h
            exact ⟨items, failed, hitems, hfailed⟩
          obtain ⟨items, failed, hitems, hfailed⟩ := hcount
          rw [status_some self hsucceeded hmessage hread hitems hfailed] at h
          cases h
          exact .inr ⟨containers, rfl, ⟨items, failed, hitems, hfailed⟩, rfl⟩

/-- Two answers that are not empty give the same state where they are read alike. -/
theorem sameState_iff (self : DockerComposeAdapter) (hsucceeded : result.succeeded = true)
    (hsucceeded' : result'.succeeded = true) (hmessage : result.message ≠ "")
    (hmessage' : result'.message ≠ "") :
    SameState (self.status platform result) (self.status platform result') ↔
      ReadAlike platform result.message result'.message := by
  constructor
  · rintro ⟨s, s', hs, hs', -, hmetadata⟩
    rcases status_inv self hsucceeded hmessage hs with ⟨hread, -, hs⟩ | ⟨containers, hread, hcount, hs⟩
    · rcases status_inv self hsucceeded' hmessage' hs' with ⟨hread', -, -⟩ | ⟨_, -, -, hs'⟩
      · exact ⟨none, hread, hread', fun _ h => nomatch h⟩
      · rw [hs, hs'] at hmetadata
        cases hmetadata
    · rcases status_inv self hsucceeded' hmessage' hs' with ⟨-, -, hs'⟩ | ⟨_, hread', -, hs'⟩
      · rw [hs, hs'] at hmetadata
        cases hmetadata
      · rw [hs, hs'] at hmetadata
        cases hmetadata
        exact ⟨some containers, hread, hread', fun _ h => Option.some.inj h ▸ hcount⟩
  · rintro ⟨found, hread, hread', hcount⟩
    cases found with
    | none =>
        exact ⟨_, _, status_none self hsucceeded hmessage hread,
          status_none self hsucceeded' hmessage' hread', rfl, rfl⟩
    | some containers =>
        obtain ⟨items, failed, hitems, hfailed⟩ := hcount containers rfl
        exact ⟨_, _, status_some self hsucceeded hmessage hread hitems hfailed,
          status_some self hsucceeded' hmessage' hread' hitems hfailed, rfl, rfl⟩

end States

/-! ### The text that is read -/

/-- A text that is not blank at its ends. -/
structure Bare (text : List Char) : Prop where
  ne_nil : text ≠ []
  front : text.dropWhile isSpace = text
  back : text.rdropWhile isSpace = text

theorem Bare.of_strip {text : List Char} (hne : text ≠ []) (h : strip text = text) : Bare text := by
  have hfront : text.dropWhile isSpace = text := by
    apply (List.dropWhile_suffix isSpace).eq_of_length_le
    have hback := (List.rdropWhile_prefix isSpace (text.dropWhile isSpace)).length_le
    rwa [← LineText.stripBy_eq, show LineText.stripBy isSpace text = text from h] at hback
  refine ⟨hne, hfront, ?_⟩
  have hstrip := LineText.stripBy_eq isSpace text
  rw [hfront] at hstrip
  exact hstrip.symm.trans h

theorem Bare.strip {text : List Char} (h : Bare text) : strip text = text := by
  rw [LineText.strip, LineText.stripBy_eq, h.front, h.back]

/-- Whatever stands between two texts. -/
theorem Bare.append {text more : List Char} (htext : Bare text) (hmore : Bare more)
    (between : List Char) : Bare (text ++ between ++ more) := by
  refine ⟨by simp [htext.ne_nil], ?_, ?_⟩
  · rw [List.append_assoc, List.dropWhile_append, htext.front,
      if_neg (by simp [htext.ne_nil])]
  · rw [LineText.rdropWhile_append, hmore.back, if_neg hmore.ne_nil]

theorem Bare.first {text : List Char} (h : Bare text) :
    ∀ c, text.head? = some c → isSpace c = false := by
  intro c hc
  have hfront := List.head?_dropWhile_not isSpace text
  rw [h.front, hc] at hfront
  exact hfront

/-- A text that ends with no blank holds a character that is none. -/
theorem Bare.exists_mem {text : List Char} (h : Bare text) : ∃ c ∈ text, isSpace c = false := by
  by_contra hblank
  push Not at hblank
  have hnil := List.rdropWhile_eq_nil_iff.mpr fun c hc => by simpa using hblank c hc
  exact h.ne_nil (h.back.symm.trans hnil)

/-- The warnings, without the blanks behind them. -/
def warnings (stderr : List UInt8) : List Char :=
  (Utf8Text.decode stderr).toList.rdropWhile isSpace

theorem warnings_eq_nil {stderr : List UInt8} : warnings stderr = [] ↔ Silent stderr :=
  List.rdropWhile_eq_nil_iff

instance (stderr : List UInt8) : Decidable (Silent stderr) :=
  decidable_of_iff _ warnings_eq_nil

/-- What is not blank in the warnings. -/
theorem warnings_mem {stderr : List UInt8} (h : ¬ Silent stderr) :
    ∃ c ∈ warnings stderr, isSpace c = false := by
  have hne : warnings stderr ≠ [] := fun hnil => h (warnings_eq_nil.mp hnil)
  have hlast := List.rdropWhile_last_not isSpace _ hne
  exact ⟨_, List.getLast_mem hne, Bool.eq_false_of_not_eq_true hlast⟩

theorem message_silent (printed : Printed) {stderr : List UInt8} (h : Silent stderr) :
    (printed.answer stderr).message = String.ofList (strip printed.text.toList) := by
  have hblank : strip (Utf8Text.decode stderr).toList = [] := by
    rw [strip, LineText.stripBy_eq, List.dropWhile_eq_nil_iff.mpr h]
    rfl
  rw [Printed.answer_message]
  by_cases hfront : printed.text.toList.dropWhile isSpace = []
  · rw [strip, LineText.stripBy_blank_append hfront, ← strip, hblank, strip, LineText.stripBy_eq,
      hfront]
    rfl
  · rw [strip, LineText.stripBy_append hfront, ← warnings, if_pos (warnings_eq_nil.mpr h),
      ← strip]

theorem message_noisy {printed : Printed} {stderr : List UInt8}
    (hprinted : printed.text.toList.dropWhile isSpace ≠ [])
    (h : ¬ Silent stderr) :
    (printed.answer stderr).message =
      String.ofList (printed.text.toList.dropWhile isSpace ++ warnings stderr) := by
  rw [Printed.answer_message, strip, LineText.stripBy_append hprinted, ← warnings,
    if_neg fun hnil => h (warnings_eq_nil.mp hnil)]

/-! ### Lines -/

theorem lines_cons (text : String) (texts : List String) :
    (Printed.lines (text :: texts)).text = text ++ "\n" ++ (Printed.lines texts).text := by
  rw [Printed.text, List.cons_append, String.intercalate_cons_of_ne_nil (by simp)]
  rfl

theorem pieces_lines (texts : List String) (more : String) :
    pieces ((Printed.lines texts).text ++ more) = texts.flatMap pieces ++ pieces more := by
  induction texts with
  | nil =>
      rw [Printed.text, List.nil_append, String.intercalate_singleton, String.empty_append]
      rfl
  | cons text texts ih =>
      rw [lines_cons, String.append_assoc, LineText.pieces_cut, ih, List.flatMap_cons,
        List.append_assoc]

theorem lines_text {texts : List String} (hne : texts ≠ []) :
    (Printed.lines texts).text = "\n".intercalate texts ++ "\n" := by
  rw [Printed.text, String.intercalate_append_of_ne_nil hne (List.cons_ne_nil _ _),
    String.intercalate_singleton, String.append_empty]

theorem bare_intercalate {texts : List String} (hne : texts ≠ [])
    (h : ∀ text ∈ texts, Bare text.toList) : Bare ("\n".intercalate texts).toList := by
  induction texts with
  | nil => exact absurd rfl hne
  | cons text texts ih =>
      have htext := h text List.mem_cons_self
      cases texts with
      | nil =>
          rw [String.intercalate_singleton]
          exact htext
      | cons next texts =>
          have hbare := ih (List.cons_ne_nil _ _) fun t ht => h t (List.mem_cons_of_mem _ ht)
          rw [String.intercalate_cons_cons, String.toList_append, String.toList_append]
          exact htext.append hbare _

/-- Lines are read as what their pieces are read as. -/
def readPieces (limit : ℕ) (lines : List String) : Except PyError (Option (List Json)) :=
  match (lines.filter (· ≠ "")).mapM (loads limit) with
  | .ok items => .ok (some items)
  | .error .invalid => .ok none
  | .error e => .error (.ofLoads e)

theorem psContainers_lines {platform : ComposePlatform} {message : String}
    (h : loads platform.recursionLimit message = .error .invalid) :
    psContainers platform message = readPieces platform.recursionLimit (pieces message) := by
  rw [psContainers, h, LineText.filter_splitlines]
  rfl

theorem isSpace_of_json {c : Char} (h : JsonText.isSpace c = true) : isSpace c = true := by
  simp only [JsonText.isSpace, Bool.or_eq_true, beq_iff_eq] at h
  rcases h with ((rfl | rfl) | rfl) | rfl <;> decide

/-- Every line boundary is a blank. -/
theorem lineBoundary_of_not_space {c : Char} (h : isSpace c = false) : lineBoundary c = false := by
  by_contra hbreak
  have hall : ∀ b ∈ LineText.lineBoundaries, isSpace b = true := by decide
  rw [hall c (by simpa [lineBoundary] using hbreak)] at h
  cases h

section Reading

variable {limit : ℕ} {text : String} {c : Container} {texts : List String}
  {containers : List Container}

theorem PrintsLine.ne_empty (h : PrintsLine limit text c) : text.toList ≠ [] := by
  intro hnil
  have hloads := h.loads_eq
  rw [loads, hnil] at hloads
  simp only [List.head?_nil, reduceCtorEq, if_false] at hloads
  rw [JsonText.Machine.run_error rfl] at hloads
  cases hloads

theorem PrintsLine.isBare (h : PrintsLine limit text c) : Bare text.toList :=
  Bare.of_strip h.ne_empty h.bare

/-- Behind an object more than blanks is no JSON. -/
theorem PrintsLine.more (h : PrintsLine limit text c) {more : String}
    (hmore : ∃ d ∈ more.toList, isSpace d = false) :
    loads limit (text ++ more) = .error .invalid := by
  have hopens := JsonText.opens_of_loads h.loads_eq rfl
  rw [JsonText.loads_append h.loads_eq hopens, if_neg]
  intro hskip
  obtain ⟨d, hd, hspace⟩ := hmore
  have hblank := List.dropWhile_eq_nil_iff.mp hskip d hd
  rw [isSpace_of_json hblank] at hspace
  cases hspace

/-- The objects of the lines, in front of whatever else is read. -/
theorem mapM_lines (h : List.Forall₂ (PrintsLine limit) texts containers) :
    texts.mapM (loads limit) = .ok (containers.map Container.json) := by
  induction h with
  | nil => rfl
  | cons hline _ ih =>
      rw [List.mapM_cons, hline.loads_eq, ih]
      rfl

/-- A line with a boundary inside is cut there. -/
theorem PrintsLine.cut (h : PrintsLine limit text c)
    (hbroken : ∃ d ∈ text.toList, lineBoundary d = true) :
    LineText.firstPiece text ≠ "" ∧
      loads limit (LineText.firstPiece text) = .error .invalid := by
  obtain ⟨b, rest, hb, htext⟩ := LineText.segments_broken hbroken
  have hmem : b ∈ text.toList := by
    rw [htext]
    exact List.mem_append_right _ List.mem_cons_self
  have hcut : isSpace b = true ∧ JsonText.fence b = true ∧ JsonText.isSpace b = false := by
    have hnewline : b ≠ '\n' := fun heq => h.newline (heq ▸ hmem)
    have hcarriage : b ≠ '\r' := fun heq => h.carriage (heq ▸ hmem)
    have hall : ∀ b ∈ LineText.lineBoundaries, b ≠ '\n' → b ≠ '\r' →
        isSpace b = true ∧ JsonText.fence b = true ∧ JsonText.isSpace b = false := by decide
    exact hall b (by simpa [lineBoundary] using hb) hnewline hcarriage
  constructor
  · intro hempty
    have hnil : (LineText.segments text.toList).1 = [] := by
      simpa [LineText.firstPiece] using congrArg String.toList hempty
    have hfront := h.isBare.front
    rw [htext, hnil, List.nil_append, List.dropWhile_cons_of_pos hcut.1] at hfront
    have hlength := congrArg List.length hfront
    have hle := (List.dropWhile_sublist (p := isSpace) (l := rest)).length_le
    rw [List.length_cons] at hlength
    omega
  · have hwhole : LineText.firstPiece text ++
        String.ofList (b :: (String.ofList rest).toList) = text := by
      apply String.toList_injective
      rw [String.toList_append, LineText.firstPiece, String.toList_ofList, String.toList_ofList,
        String.toList_ofList]
      exact htext.symm
    exact JsonText.loads_cut hcut.2.1 hcut.2.2 (hwhole ▸ h.loads_eq)

/-- Where a line has a boundary inside, the lines are not read, whatever follows them. -/
theorem mapM_broken (h : List.Forall₂ (PrintsLine limit) texts containers)
    (hbroken : ∃ text ∈ texts, ∃ d ∈ text.toList, lineBoundary d = true) (more : List String) :
    ((texts.flatMap pieces ++ more).filter (· ≠ "")).mapM (loads limit) = .error .invalid := by
  induction h with
  | nil =>
      obtain ⟨_, hmem, -⟩ := hbroken
      cases hmem
  | @cons text c texts containers hline _ ih =>
      by_cases hcut : ∃ d ∈ text.toList, lineBoundary d = true
      · obtain ⟨hne, hloads⟩ := hline.cut hcut
        rw [List.flatMap_cons, pieces, List.cons_append, List.cons_append, List.filter_cons,
          if_pos (by simpa using hne), List.mapM_cons, hloads]
        rfl
      · obtain ⟨other, hother, hd⟩ := hbroken
        have hrest : ∃ text ∈ texts, ∃ d ∈ text.toList, lineBoundary d = true := by
          rcases List.mem_cons.mp hother with rfl | hrest
          · exact absurd hd hcut
          · exact ⟨other, hrest, hd⟩
        have hplain : ∀ d ∈ text.toList, lineBoundary d = false := by
          simpa using hcut
        have hne : text ≠ "" := fun h => hline.ne_empty (by rw [h]; rfl)
        rw [List.flatMap_cons, LineText.pieces_plain hplain, List.append_assoc,
          List.singleton_append, List.filter_cons, if_pos (by simpa using hne), List.mapM_cons,
          hline.loads_eq, ih hrest]
        rfl

theorem PrintsLine.bare_all (h : List.Forall₂ (PrintsLine limit) texts containers) :
    ∀ text ∈ texts, Bare text.toList := by
  induction h with
  | nil => exact List.forall_mem_nil _
  | cons hline _ ih => exact List.forall_mem_cons.mpr ⟨hline.isBare, ih⟩

/-- What is read of lines, without warnings behind them and with some. -/
theorem lines_silent (h : List.Forall₂ (PrintsLine limit) texts containers) (hne : texts ≠ [])
    {stderr : List UInt8} (hsilent : Silent stderr) :
    ((Printed.lines texts).answer stderr).message = "\n".intercalate texts := by
  have hbare := bare_intercalate hne (PrintsLine.bare_all h)
  have htext : (Printed.lines texts).text.toList = ("\n".intercalate texts).toList ++ ['\n'] := by
    rw [lines_text hne, String.toList_append]
    rfl
  rw [message_silent _ hsilent, htext, strip, LineText.stripBy_append, if_pos (by decide),
    ← strip, hbare.strip, String.ofList_toList]
  rw [hbare.front]
  exact hbare.ne_nil

theorem lines_noisy (h : List.Forall₂ (PrintsLine limit) texts containers) (hne : texts ≠ [])
    {stderr : List UInt8} (hnoisy : ¬ Silent stderr) :
    ((Printed.lines texts).answer stderr).message =
      (Printed.lines texts).text ++ String.ofList (warnings stderr) := by
  have hbare := bare_intercalate hne (PrintsLine.bare_all h)
  have hfront : (Printed.lines texts).text.toList.dropWhile isSpace =
      (Printed.lines texts).text.toList := by
    rw [lines_text hne, String.toList_append, List.dropWhile_append, hbare.front,
      if_neg (by simpa using hbare.ne_nil)]
  have hne' : (Printed.lines texts).text.toList ≠ [] := by
    rw [lines_text hne, String.toList_append]
    simp
  rw [message_noisy (by rwa [hfront]) hnoisy, hfront, String.ofList_append, String.ofList_toList]

/-- The pieces of the lines, and of the warnings behind them. -/
theorem lines_pieces (h : List.Forall₂ (PrintsLine limit) texts containers) (hne : texts ≠ [])
    (stderr : List UInt8) :
    (pieces ((Printed.lines texts).answer stderr).message).filter (· ≠ "") =
      (texts.flatMap pieces ++ pieces (String.ofList (warnings stderr))).filter (· ≠ "") := by
  by_cases hsilent : Silent stderr
  · have hcut := LineText.pieces_cut ("\n".intercalate texts) ""
    rw [← lines_text hne, pieces_lines] at hcut
    have hempty : (pieces (String.ofList [])).filter (· ≠ "") = [] := by decide
    rw [lines_silent h hne hsilent, warnings_eq_nil.mpr hsilent, List.filter_append, hempty,
      List.append_nil, List.append_cancel_right hcut]
  · rw [lines_noisy h hne hsilent, pieces_lines]

/-- Several lines, or a line and warnings, are no JSON text. -/
theorem lines_invalid (h : List.Forall₂ (PrintsLine limit) texts containers) {stderr : List UInt8}
    (hmore : 2 ≤ texts.length ∨ texts ≠ [] ∧ ¬ Silent stderr) :
    loads limit ((Printed.lines texts).answer stderr).message = .error .invalid := by
  have hbare := PrintsLine.bare_all h
  cases h with
  | nil => exact absurd hmore (by simp)
  | @cons text c texts containers hline hlines =>
      by_cases hsilent : Silent stderr
      · cases texts with
        | nil => exact absurd hmore (by simp [hsilent])
        | cons next texts =>
            obtain ⟨d, hd, hspace⟩ := (bare_intercalate (List.cons_ne_nil _ _) fun t ht =>
              hbare t (List.mem_cons_of_mem _ ht)).exists_mem
            rw [lines_silent (.cons hline hlines) (List.cons_ne_nil _ _) hsilent,
              String.intercalate_cons_cons, String.append_assoc]
            exact hline.more ⟨d, by rw [String.toList_append]; exact List.mem_append_right _ hd,
              hspace⟩
      · obtain ⟨d, hd, hspace⟩ := warnings_mem hsilent
        rw [lines_noisy (.cons hline hlines) (List.cons_ne_nil _ _) hsilent, lines_cons,
          String.append_assoc, String.append_assoc]
        refine hline.more ⟨d, ?_, hspace⟩
        simp only [String.toList_append, String.toList_ofList, List.mem_append]
        exact .inr (.inr hd)

/-- **Several objects of which one has a boundary inside** are never read. -/
theorem psContainers_broken {platform : ComposePlatform}
    (h : List.Forall₂ (PrintsLine platform.recursionLimit) texts containers)
    (hbroken : (Printed.lines texts).Broken) (stderr : List UInt8) :
    psContainers platform ((Printed.lines texts).answer stderr).message = .ok none := by
  obtain ⟨hlength, hcut⟩ := hbroken
  have hne : texts ≠ [] := by
    intro hnil
    rw [hnil] at hlength
    exact absurd hlength (by simp)
  have hread := mapM_broken h hcut (pieces (String.ofList (warnings stderr)))
  rw [psContainers_lines (lines_invalid h (.inl hlength)), readPieces, lines_pieces h hne, hread]

/-- Lines without other boundaries are read one by one, the warnings after them. -/
theorem mapM_unbroken (h : List.Forall₂ (PrintsLine limit) texts containers)
    (hplain : ∀ text ∈ texts, ∀ d ∈ text.toList, lineBoundary d = false) (more : List String) :
    ((texts.flatMap pieces ++ more).filter (· ≠ "")).mapM (loads limit) =
      (((more.filter (· ≠ "")).mapM (loads limit)).map (containers.map Container.json ++ ·)) := by
  have hpieces : texts.flatMap pieces = texts := by
    clear h
    induction texts with
    | nil => rfl
    | cons text texts ih =>
        rw [List.flatMap_cons, LineText.pieces_plain (hplain text List.mem_cons_self),
          ih fun t ht => hplain t (List.mem_cons_of_mem _ ht)]
        rfl
  have hfilter : texts.filter (· ≠ "") = texts := by
    apply List.filter_eq_self.mpr
    intro text htext
    have hne := (PrintsLine.bare_all h text htext).ne_nil
    simpa using fun heq : text = "" => hne (by rw [heq]; rfl)
  rw [hpieces, List.filter_append, hfilter, List.mapM_append, mapM_lines h]
  cases (more.filter (· ≠ "")).mapM (loads limit) <;> rfl

/-- What is read behind lines is read besides them. -/
theorem noisy_lines {platform : ComposePlatform}
    (h : List.Forall₂ (PrintsLine platform.recursionLimit) texts containers) (hne : texts ≠ [])
    {stderr : List UInt8} (hnoisy : ¬ Silent stderr) :
    psContainers platform ((Printed.lines texts).answer stderr).message ≠
      .ok (some (containers.map Container.json)) := by
  intro hread
  rw [psContainers_lines (lines_invalid h (.inr ⟨hne, hnoisy⟩)), readPieces,
    lines_pieces h hne] at hread
  by_cases hplain : ∀ text ∈ texts, ∀ d ∈ text.toList, lineBoundary d = false
  · rw [mapM_unbroken h hplain] at hread
    cases hmore : ((pieces (String.ofList (warnings stderr))).filter (· ≠ "")).mapM
        (loads platform.recursionLimit) with
    | error e =>
        rw [hmore] at hread
        cases e <;> cases hread
    | ok extra =>
        rw [hmore] at hread
        have hextra : extra = [] := by
          have hlists := Option.some.inj (Except.ok.inj hread)
          exact List.append_right_eq_self.mp hlists
        -- a character that is not blank stands in a piece
        obtain ⟨d, hd, hspace⟩ := warnings_mem hnoisy
        obtain ⟨piece, hpiece, hmem⟩ := LineText.mem_pieces (lineBoundary_of_not_space hspace)
          (show d ∈ (String.ofList (warnings stderr)).toList by rwa [String.toList_ofList])
        have hfilter : piece ∈ (pieces (String.ofList (warnings stderr))).filter (· ≠ "") := by
          refine List.mem_filter.mpr ⟨hpiece, ?_⟩
          have hpiece' : piece ≠ "" := fun heq => by
            rw [heq] at hmem
            cases hmem
          simpa using hpiece'
        have hall := Traversals.mapM_ok hmore
        rw [hextra, List.forall₂_nil_right_iff] at hall
        rw [hall] at hfilter
        cases hfilter
  · push Not at hplain
    obtain ⟨text, htext, d, hd, hbreak⟩ := hplain
    rw [mapM_broken h ⟨text, htext, d, hd, by simpa using hbreak⟩] at hread
    cases hread

end Reading

/-! ### Arrays -/

section Arrays

variable {platform : ComposePlatform} {text : String} {containers : List Container}

theorem array_bare
    (h : (Printed.array text).Of platform.recursionLimit containers) :
    Bare (strip text.toList) := by
  apply Bare.of_strip
  · intro hnil
    rw [Printed.Of, hnil, loads, if_neg (by decide)] at h
    rw [JsonText.Machine.run_error rfl] at h
    cases h
  · exact LineText.stripBy_stripBy isSpace text.toList

theorem array_front (h : (Printed.array text).Of platform.recursionLimit containers) :
    text.toList.dropWhile isSpace ≠ [] := by
  intro hnil
  apply (array_bare h).ne_nil
  rw [strip, LineText.stripBy_eq, hnil]
  rfl

/-- A beginning of a text that begins with an array, where it is read, is that array. -/
theorem beginning_read {limit : ℕ} {core piece more rest : String} {v u : Json}
    (hcore : loads limit core = .ok v) (hv : v.isScalar = false) (hbare : Bare core.toList)
    (hbegins : core ++ more = piece ++ rest) (hne : piece.toList ≠ [])
    (hpiece : loads limit piece = .ok u) : u = v := by
  have hopens := JsonText.opens_of_loads hcore hv
  have hchars := congrArg String.toList hbegins
  rw [String.toList_append, String.toList_append] at hchars
  rcases List.append_eq_append_iff.mp hchars with ⟨tail, htail, -⟩ | ⟨tail, htail, -⟩
  · have htext : piece = core ++ String.ofList tail := by
      apply String.toList_injective
      rw [String.toList_append, String.toList_ofList, htail]
    rw [htext, JsonText.loads_append hcore hopens] at hpiece
    split_ifs at hpiece
    exact (Except.ok.inj hpiece).symm
  · have htext : core = piece ++ String.ofList tail := by
      apply String.toList_injective
      rw [String.toList_append, String.toList_ofList, htail]
    have hopens' : JsonText.Opens piece.toList := by
      obtain ⟨d, ds, hd⟩ := List.exists_cons_of_ne_nil hne
      rw [hd, List.cons_append] at htail
      have hspace : JsonText.isSpace d = false := by
        have hfirst := hbare.first
        rw [htail] at hfirst
        by_contra hjson
        have hblank := hfirst d rfl
        rw [isSpace_of_json (by simpa using hjson)] at hblank
        cases hblank
      rw [JsonText.Opens, htail, JsonText.skip_cons hspace] at hopens
      rw [JsonText.Opens, hd, JsonText.skip_cons hspace]
      exact hopens
    rw [htext, JsonText.loads_append hpiece hopens'] at hcore
    split_ifs at hcore
    exact Except.ok.inj hcore

/-- With a warning, what is read begins with an array, or nothing is read. -/
theorem noisy_array (h : (Printed.array text).Of platform.recursionLimit containers)
    {stderr : List UInt8} (hnoisy : ¬ Silent stderr) {items : List Json}
    (hread : psContainers platform ((Printed.array text).answer stderr).message =
      .ok (some items)) : ¬ Countable platform items := by
  have hbare := array_bare h
  obtain ⟨blanks, hblanks⟩ := List.rdropWhile_prefix isSpace (text.toList.dropWhile isSpace)
  have hmessage : ((Printed.array text).answer stderr).message =
      String.ofList (strip text.toList) ++ String.ofList (blanks ++ warnings stderr) := by
    have hfront : (Printed.array text).text.toList.dropWhile isSpace ≠ [] := array_front h
    have hall : text.toList.dropWhile isSpace = strip text.toList ++ blanks := hblanks.symm
    rw [message_noisy hfront hnoisy, ← String.ofList_append, ← List.append_assoc, ← hall]
    rfl
  have hcore : loads platform.recursionLimit (String.ofList (strip text.toList)) =
      .ok (.arr (containers.map Container.json)) := h
  have hopens := JsonText.opens_of_loads hcore rfl
  have hinvalid : loads platform.recursionLimit ((Printed.array text).answer stderr).message =
      .error .invalid := by
    rw [hmessage, JsonText.loads_append hcore hopens, if_neg]
    intro hskip
    obtain ⟨d, hd, hspace⟩ := warnings_mem hnoisy
    rw [JsonText.skip, String.toList_ofList] at hskip
    have hjson := List.dropWhile_eq_nil_iff.mp hskip d (List.mem_append_right _ hd)
    rw [isSpace_of_json hjson] at hspace
    cases hspace
  obtain ⟨d, ds, hd⟩ := List.exists_cons_of_ne_nil hbare.ne_nil
  have hne : LineText.firstPiece ((Printed.array text).answer stderr).message ≠ "" := by
    refine LineText.firstPiece_ne_empty (c := d) ?_ (lineBoundary_of_not_space
      (hbare.first d (by rw [hd]; rfl)))
    rw [hmessage, String.toList_append, String.toList_ofList, hd]
    rfl
  rw [psContainers_lines hinvalid, readPieces, pieces, List.filter_cons,
    if_pos (by simpa using hne), List.mapM_cons] at hread
  cases hfirst : loads platform.recursionLimit
      (LineText.firstPiece ((Printed.array text).answer stderr).message) with
  | error e =>
      rw [hfirst] at hread
      cases e <;> cases hread
  | ok u =>
      obtain ⟨rest, hrest⟩ := LineText.firstPiece_begins
        ((Printed.array text).answer stderr).message
      have hu : u = .arr (containers.map Container.json) := by
        refine beginning_read hcore rfl ?_ (hmessage.symm.trans hrest) ?_ hfirst
        · rwa [String.toList_ofList]
        · intro hnil
          exact hne (String.toList_injective hnil)
      subst hu
      rw [hfirst] at hread
      cases htail : ((LineText.furtherPieces
          ((Printed.array text).answer stderr).message).filter (· ≠ "")).mapM
          (loads platform.recursionLimit) with
      | error e =>
          simp only [bind, Except.bind, htail] at hread
          cases e <;> cases hread
      | ok more =>
          simp only [bind, Except.bind, htail] at hread
          cases hread
          rintro ⟨_, _, hobjects, -⟩
          rw [List.mapM_cons] at hobjects
          cases hobjects

end Arrays

/-! ### What the adapter reports -/

section Reports

variable {platform : ComposePlatform} {containers : List Container} {printed : Printed}

/-- **Without warnings the answer is read** as the containers that were printed, where it is not
broken. -/
theorem answers_silent (h : printed.Of platform.recursionLimit containers)
    (hwhole : ¬ printed.Broken) {stderr : List UInt8} (hsilent : Silent stderr) :
    Answers platform containers (printed.answer stderr) := by
  refine ⟨printed.answer_succeeded stderr, ?_⟩
  cases printed with
  | array text =>
      right
      have hcore : loads platform.recursionLimit (String.ofList (strip text.toList)) =
          .ok (.arr (containers.map Container.json)) := h
      have hmessage : ((Printed.array text).answer stderr).message =
          String.ofList (strip text.toList) := message_silent _ hsilent
      constructor
      · rw [hmessage]
        exact fun hempty => (array_bare h).ne_nil (by simpa using congrArg String.toList hempty)
      · rw [psContainers, hmessage, hcore]
  | lines texts =>
      have hlines : List.Forall₂ (PrintsLine platform.recursionLimit) texts containers := h
      by_cases hne : texts = []
      · left
        subst hne
        cases hlines
        exact ⟨rfl, message_silent _ hsilent⟩
      · right
        have hmessage := lines_silent hlines hne hsilent
        have hbare := bare_intercalate hne (PrintsLine.bare_all hlines)
        constructor
        · rw [hmessage]
          exact fun hempty => hbare.ne_nil (by rw [hempty]; rfl)
        · by_cases hone : 2 ≤ texts.length
          · have hplain : ∀ text ∈ texts, ∀ d ∈ text.toList, lineBoundary d = false := by
              intro text htext d hd
              by_contra hbreak
              exact hwhole ⟨hone, text, htext, d, hd, by simpa using hbreak⟩
            have hread := mapM_unbroken hlines hplain (pieces (String.ofList (warnings stderr)))
            have hnone : (pieces (String.ofList (warnings stderr))).filter (· ≠ "") = [] := by
              rw [warnings_eq_nil.mpr hsilent]
              decide
            rw [psContainers_lines (lines_invalid hlines (.inl hone)), readPieces,
              lines_pieces hlines hne, hread, hnone]
            exact congrArg (fun items => Except.ok (some items)) (List.append_nil _)
          · cases hlines with
            | nil => exact absurd rfl hne
            | cons hline hrest =>
                cases hrest with
                | nil =>
                    rw [hmessage, String.intercalate_singleton, psContainers, hline.loads_eq]
                    rfl
                | cons _ _ => simp at hone

theorem message_ne_empty {stderr : List UInt8} (hnoisy : ¬ Silent stderr) :
    (printed.answer stderr).message ≠ "" := by
  obtain ⟨d, hd, hspace⟩ := warnings_mem hnoisy
  have hmem : d ∈ (Utf8Text.decode stderr).toList :=
    (List.rdropWhile_prefix isSpace _).subset hd
  intro hempty
  rw [Printed.answer_message] at hempty
  have hnil : strip (printed.text.toList ++ (Utf8Text.decode stderr).toList) = [] := by
    simpa using congrArg String.toList hempty
  have hkept := (LineText.mem_stripBy hspace).mpr (List.mem_append_right printed.text.toList hmem)
  rw [← strip, hnil] at hkept
  cases hkept

/-- **A warning changes the state**, where the answer is not broken. -/
theorem noisy_differs (self : DockerComposeAdapter)
    (h : printed.Of platform.recursionLimit containers) (hwhole : ¬ printed.Broken)
    {stderr stderr' : List UInt8} (hsilent : Silent stderr) (hnoisy : ¬ Silent stderr') :
    ¬ SameState (self.status platform (printed.answer stderr))
      (self.status platform (printed.answer stderr')) := by
  rintro ⟨s, s', hs, hs', hstatus, hmetadata⟩
  have hnoise := status_inv self (printed.answer_succeeded stderr') (message_ne_empty hnoisy) hs'
  obtain ⟨hsucceeded, ⟨rfl, hmessage⟩ | ⟨hmessage, hread⟩⟩ := answers_silent h hwhole hsilent
  · rw [status_silent self hsucceeded hmessage] at hs
    cases hs
    rcases hnoise with ⟨-, hunknown, -⟩ | ⟨_, -, -, hother⟩
    · rw [hunknown] at hstatus
      cases hstatus
    · rw [hother] at hmetadata
      cases hmetadata
  · rw [status_read self hsucceeded hmessage hread] at hs
    cases hs
    rcases hnoise with ⟨-, -, hnone⟩ | ⟨items, hitems, hcount, hother⟩
    · rw [hnone] at hmetadata
      cases hmetadata
    · rw [hother] at hmetadata
      cases hmetadata
      cases printed with
      | array text => exact noisy_array h hnoisy hitems hcount
      | lines texts =>
          have hne : texts ≠ [] := by
            rintro rfl
            exact hmessage (message_silent _ hsilent)
          exact noisy_lines h hne hnoisy hitems

theorem sameState_silent (self : DockerComposeAdapter)
    (h : printed.Of platform.recursionLimit containers) (hwhole : ¬ printed.Broken)
    {stderr stderr' : List UInt8} (hsilent : Silent stderr) (hsilent' : Silent stderr') :
    SameState (self.status platform (printed.answer stderr))
      (self.status platform (printed.answer stderr')) := by
  obtain ⟨s, hs, -⟩ := status_answers self (answers_silent h hwhole hsilent)
  have hmessage : (printed.answer stderr').message = (printed.answer stderr).message := by
    rw [message_silent _ hsilent, message_silent _ hsilent']
  have hs' : self.status platform (printed.answer stderr') = .ok s := by
    rw [← hs, DockerComposeAdapter.status, DockerComposeAdapter.status, hmessage]
    rfl
  exact ⟨s, s, hs, hs', rfl, rfl⟩

theorem status_broken (self : DockerComposeAdapter)
    (h : printed.Of platform.recursionLimit containers) (hbroken : printed.Broken)
    (stderr : List UInt8) :
    self.status platform (printed.answer stderr) =
      .ok { status := .unknown
            runtimeIdentifier := self.identifier
            errorMessage := some "Docker Compose returned invalid JSON" } := by
  cases printed with
  | array text => exact hbroken.elim
  | lines texts =>
      have hread := psContainers_broken h hbroken stderr
      refine status_none self rfl ?_ hread
      intro hempty
      have hinvalid : loads platform.recursionLimit "" = .error .invalid := by
        rw [loads, if_neg (by decide)]
        exact JsonText.Machine.run_error rfl
      have hnone : (pieces "").filter (· ≠ "") = [] := by decide
      rw [hempty, psContainers_lines hinvalid, readPieces, hnone] at hread
      cases hread

end Reports

def webPrinted : Printed := .array webAnswer.message

theorem webPrinted_of : webPrinted.Of 1000 [web] := by
  have hbare : String.ofList (strip webAnswer.message.toList) = webAnswer.message := by decide
  show loads 1000 (String.ofList (strip webAnswer.message.toList)) = _
  rw [hbare]
  exact JsonText.loads_of_runFor (n := 20) (by decide) rfl

/-- `WARN[0000] The "TAG" variable is not set.` -/
def warned : List UInt8 :=
  Utf8Text.encode "WARN[0000] The \"TAG\" variable is not set.\n".toList

end MachineDeck.Runtime

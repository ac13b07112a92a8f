import MachineDeck.ComposePorts
import MachineDeck.ComposeWarnings
import Mathlib.Data.Bool.AllAny

/-!
# Two ways to the ports of a project

`ComposePortDiscovery.discover`: the Docker package, and where that raises the `docker` program.

* `discoverSync`, `discoverCli`, `discover` — the two ways, and the second after the first;
* `DockerDaemon` — the containers of a daemon, and how package and program answer about them;
* `cli_never_wrong` — with whatever warnings, the program gives the published ports or an error;
* `compose_discovery_exact` — and so does `discover`, which raises nothing else.
-/

namespace MachineDeck.Ports

open JsonText (Json loads member?)
open LineText (isSpace strip pieces splitlines lineBoundary)
open Logs (PyError messageText)
open MachineDeck.Runtime (Execution runCommand Printed Silent warnings Bare)

/-! ### The two ways -/

/-- The Docker package, with the texts of what it raises. -/
structure DockerSdk where
  fromEnv : Except String Unit
  /-- `short_id` and `attrs` of the containers with a label. -/
  list : String → Except String (List (String × List (String × Json)))
  close : Except String Unit

inductive DiscoveryError where
  | sdk (message : String)
  | python (e : PyError)
  | discovery (message : String)

/-- `str(exc)`, where `describe` has the texts of Python's own exceptions. -/
def DiscoveryError.text (describe : PyError → String) : DiscoveryError → String
  | .sdk message => message
  | .python e => describe e
  | .discovery message => message

def projectLabel (runtime : ComposeRuntime) : String :=
  "com.docker.compose.project=" ++ expectedProject runtime

def psCommand (runtime : ComposeRuntime) : List String :=
  ["docker", "ps", "--all", "--filter", "label=" ++ projectLabel runtime, "--format",
    "\x7b\x7b.ID\x7d\x7d"]

def inspectCommand (containerIds : List String) : List String :=
  ["docker", "inspect"] ++ containerIds

section

variable (platform : DiscoveryPlatform) (manifest : ApplicationManifest) (runtime : ComposeRuntime)

def observed (containers : List (String × List (String × Json))) :
    Except DiscoveryError (List ObservedPort) :=
  (observedFromContainers platform manifest runtime containers).mapError .python

/-- `_discover_sync`: the client is closed on every way out, and what that raises is raised. -/
def discoverSync (sdk : DockerSdk) : Except DiscoveryError (List ObservedPort) := do
  sdk.fromEnv.mapError .sdk
  let answer := (sdk.list (projectLabel runtime)).mapError DiscoveryError.sdk >>=
    observed platform manifest runtime
  sdk.close.mapError .sdk
  answer

/-- The items that are objects, with their ids. -/
def inspectedContainers (attributes : List Json) : List (String × List (String × Json)) :=
  attributes.filterMap fun item =>
    match item with
    | .obj members => some (messageText platform.toPlatform (member? members "Id"), members)
    | _ => none

/-- `_discover_cli` from the second command on. -/
def inspectCli (run : List String → Execution) (containerIds : List String) :
    Except DiscoveryError (List ObservedPort) :=
  let inspected := runCommand (run (inspectCommand containerIds))
  if inspected.succeeded = false then
    .error (.discovery
      (if inspected.message = "" then "Cannot inspect Compose containers" else inspected.message))
  else
    match loads platform.recursionLimit inspected.message with
    | .error .invalid => .error (.discovery "Docker inspect returned invalid JSON")
    | .error e => .error (.python (.ofLoads e))
    | .ok (.arr attributes) =>
      observed platform manifest runtime (inspectedContainers platform attributes)
    | .ok _ => .error (.discovery "Docker inspect returned an unexpected response")

/-- `_discover_cli`, with what becomes of a command. -/
def discoverCli (run : List String → Execution) : Except DiscoveryError (List ObservedPort) :=
  let listed := runCommand (run (psCommand runtime))
  if listed.succeeded = false then
    .error (.discovery
      (if listed.message = "" then "Cannot list Compose containers" else listed.message))
  else
    let containerIds := (splitlines listed.message).filter (· ≠ "")
    if containerIds = [] then .ok []
    else inspectCli platform manifest runtime run containerIds

def discover (describe : PyError → String) (sdk : DockerSdk) (run : List String → Execution) :
    Except DiscoveryError (List ObservedPort) :=
  match discoverSync platform manifest runtime sdk with
  | .ok ports => .ok ports
  | .error sdkError =>
    match discoverCli platform manifest runtime run with
    | .ok ports => .ok ports
    | .error cliError =>
      .error (.discovery ("Docker Engine discovery failed via SDK (" ++ sdkError.text describe ++
        ") and CLI (" ++ cliError.text describe ++ ")"))

end

/-! ### The daemon -/

/-- `short_id`, and what `docker ps` prints of an id. -/
def ComposeContainer.shortId (container : ComposeContainer) : String :=
  String.ofList (container.id.toList.take 12)

/-- The containers of a daemon, and the names by which the program knows them. -/
structure DockerDaemon where
  containers : List ComposeContainer
  lookup : String → Option ComposeContainer
  ids : ∀ container ∈ containers, container.id ≠ "" ∧
    ∀ c ∈ container.id.toList, c ∈ "0123456789abcdef".toList
  named : ∀ container ∈ containers, lookup container.shortId = some container

namespace DockerDaemon

/-- The containers with the label of the project. -/
def found (daemon : DockerDaemon) (runtime : ComposeRuntime) : List ComposeContainer :=
  daemon.containers.filter fun container => container.project == some (expectedProject runtime)

/-- The package lists the containers of the project, or it raises. -/
def AnswersSdk (daemon : DockerDaemon) (runtime : ComposeRuntime) (sdk : DockerSdk) : Prop :=
  ∀ containers, sdk.list (projectLabel runtime) = .ok containers →
    containers = (daemon.found runtime).map fun container => (container.shortId, container.members)

/-- A text of the standard error in which no container is named. -/
def Unnamed (daemon : DockerDaemon) (stderr : List UInt8) : Prop :=
  ∀ name, (daemon.lookup name).isSome = true → ¬ name.toList <:+: (Utf8Text.decode stderr).toList

/-- Where it exits with zero, the program prints the short ids of the containers of the project, one
on each line, and it describes the containers that it is asked for by their names. Warnings may
stand on the standard error. -/
structure AnswersCli (daemon : DockerDaemon) (limit : ℕ) (runtime : ComposeRuntime)
    (run : List String → Execution) : Prop where
  ps : ∀ stdout stderr, run (psCommand runtime) = .exited 0 stdout stderr →
    stdout = Utf8Text.encode
      (Printed.lines ((daemon.found runtime).map ComposeContainer.shortId)).text.toList ∧
    daemon.Unnamed stderr
  inspect : ∀ names stdout stderr, run (inspectCommand names) = .exited 0 stdout stderr →
    ∃ (described : List ComposeContainer) (text : String),
      List.Forall₂ (fun name container => daemon.lookup name = some container) names described ∧
      stdout = Utf8Text.encode text.toList ∧
      loads limit (String.ofList (strip text.toList)) =
        .ok (.arr (described.map fun container => .obj container.members))

end DockerDaemon

/-! ### Lines of the standard error -/

theorem segments_infix (text : List Char) :
    (LineText.segments text).1 <+: text ∧
      ∀ piece ∈ (LineText.segments text).2, piece <:+: text := by
  induction text with
  | nil => exact ⟨List.prefix_refl _, nofun⟩
  | cons c cs ih =>
    have hbehind {piece : List Char} (h : piece <:+: cs) : piece <:+: c :: cs :=
      h.trans (List.suffix_cons c cs).isInfix
    cases hc : lineBoundary c with
    | true =>
      rw [LineText.segments_boundary hc]
      refine ⟨List.nil_prefix, fun piece hpiece => ?_⟩
      rcases List.mem_cons.mp hpiece with rfl | hpiece
      · exact hbehind ih.1.isInfix
      · exact hbehind (ih.2 piece hpiece)
    | false =>
      rw [LineText.segments_inner hc]
      exact ⟨List.prefix_cons_inj c |>.mpr ih.1, fun piece hpiece => hbehind (ih.2 piece hpiece)⟩

theorem infix_of_mem_pieces {s piece : String} (h : piece ∈ pieces s) :
    piece.toList <:+: s.toList := by
  obtain ⟨hfirst, hrest⟩ := segments_infix s.toList
  rcases List.mem_cons.mp h with rfl | h
  · rw [LineText.firstPiece, String.toList_ofList]
    exact hfirst.isInfix
  · obtain ⟨segment, hsegment, rfl⟩ := List.mem_map.mp h
    rw [String.toList_ofList]
    exact hrest segment hsegment

/-! ### What the program prints -/

/-- A line without blanks. -/
structure PlainLine (line : String) : Prop where
  ne_empty : line ≠ ""
  plain : ∀ c ∈ line.toList, isSpace c = false

section

variable {line : String} {lines : List String} {stderr : List UInt8}

theorem PlainLine.bare (h : PlainLine line) : Bare line.toList := by
  refine Bare.of_strip (fun hnil => h.ne_empty (String.toList_injective hnil)) ?_
  exact LineText.stripBy_of_plain h.plain

theorem PlainLine.pieces_eq (h : PlainLine line) : pieces line = [line] :=
  LineText.pieces_plain fun c hc => Runtime.lineBoundary_of_not_space (h.plain c hc)

theorem plain_pieces (h : ∀ line ∈ lines, PlainLine line) : lines.flatMap pieces = lines := by
  induction lines with
  | nil => rfl
  | cons line lines ih =>
    rw [List.flatMap_cons, (h line List.mem_cons_self).pieces_eq,
      ih fun l hl => h l (List.mem_cons_of_mem _ hl)]
    rfl

theorem plain_filter (h : ∀ line ∈ lines, PlainLine line) : lines.filter (· ≠ "") = lines := by
  refine List.filter_eq_self.mpr fun line hline => ?_
  simpa using (h line hline).ne_empty

theorem lines_bare (h : ∀ line ∈ lines, PlainLine line) (hne : lines ≠ []) :
    Bare ("\n".intercalate lines).toList :=
  Runtime.bare_intercalate hne fun line hline => (h line hline).bare

/-- Without warnings the lines are read. -/
theorem read_silent (h : ∀ line ∈ lines, PlainLine line) (hsilent : Silent stderr) :
    (splitlines ((Printed.lines lines).answer stderr).message).filter (· ≠ "") = lines := by
  rw [LineText.filter_splitlines, Runtime.message_silent _ hsilent]
  by_cases hne : lines = []
  · subst hne
    decide
  · have hbare := lines_bare h hne
    have htext : (Printed.lines lines).text.toList = ("\n".intercalate lines).toList ++ ['\n'] := by
      rw [Runtime.lines_text hne, String.toList_append]
      rfl
    have hstrip : strip (Printed.lines lines).text.toList = ("\n".intercalate lines).toList := by
      rw [htext, strip, LineText.stripBy_append, if_pos (by decide), ← strip, hbare.strip]
      rw [hbare.front]
      exact hbare.ne_nil
    have hcut := LineText.pieces_cut ("\n".intercalate lines) ""
    rw [← Runtime.lines_text hne, Runtime.pieces_lines] at hcut
    rw [hstrip, String.ofList_toList, ← List.append_cancel_right hcut, plain_pieces h,
      plain_filter h]

/-- With warnings, a piece of them is read as a line. -/
theorem read_noisy (h : ∀ line ∈ lines, PlainLine line) (hnoisy : ¬ Silent stderr) :
    ∃ name ∈ (splitlines ((Printed.lines lines).answer stderr).message).filter (· ≠ ""),
      name.toList <:+: (Utf8Text.decode stderr).toList := by
  obtain ⟨d, hd, hspace⟩ := Runtime.warnings_mem hnoisy
  have hplain := Runtime.lineBoundary_of_not_space hspace
  have hwarnings : warnings stderr <:+: (Utf8Text.decode stderr).toList :=
    (List.rdropWhile_prefix isSpace _).isInfix
  have hkept {name : String} (hmem : d ∈ name.toList) : decide (name ≠ "") = true := by
    rw [decide_eq_true_eq]
    rintro rfl
    cases hmem
  rw [LineText.filter_splitlines]
  by_cases hne : lines = []
  · subst hne
    have hmessage : ((Printed.lines []).answer stderr).message =
        String.ofList (strip (Utf8Text.decode stderr).toList) := by
      rw [Printed.answer_message]
      rfl
    have hstrip : d ∈ strip (Utf8Text.decode stderr).toList :=
      (LineText.mem_stripBy hspace).mpr (hwarnings.subset hd)
    obtain ⟨name, hname, hmem⟩ := LineText.mem_pieces hplain
      (show d ∈ (String.ofList (strip (Utf8Text.decode stderr).toList)).toList by
        rwa [String.toList_ofList])
    rw [hmessage]
    refine ⟨name, List.mem_filter.mpr ⟨hname, hkept hmem⟩, (infix_of_mem_pieces hname).trans ?_⟩
    rw [String.toList_ofList, strip, LineText.stripBy_eq]
    exact (List.rdropWhile_prefix isSpace _).isInfix.trans (List.dropWhile_suffix isSpace).isInfix
  · have hbare := lines_bare h hne
    have hfront : (Printed.lines lines).text.toList.dropWhile isSpace =
        (Printed.lines lines).text.toList := by
      rw [Runtime.lines_text hne, String.toList_append, List.dropWhile_append, hbare.front,
        if_neg (by simpa using hbare.ne_nil)]
    have hsome : (Printed.lines lines).text.toList ≠ [] := by
      rw [Runtime.lines_text hne, String.toList_append]
      simp
    have hmessage : ((Printed.lines lines).answer stderr).message =
        (Printed.lines lines).text ++ String.ofList (warnings stderr) := by
      rw [Runtime.message_noisy (by rwa [hfront]) hnoisy, hfront, String.ofList_append,
        String.ofList_toList]
    obtain ⟨name, hname, hmem⟩ := LineText.mem_pieces hplain
      (show d ∈ (String.ofList (warnings stderr)).toList by rwa [String.toList_ofList])
    rw [hmessage, Runtime.pieces_lines]
    refine ⟨name, List.mem_filter.mpr ⟨List.mem_append_right _ hname, hkept hmem⟩,
      (infix_of_mem_pieces hname).trans ?_⟩
    rw [String.toList_ofList]
    exact hwarnings

/-- What is described is read without warnings. -/
theorem described_silent (text : String) (hsilent : Silent stderr) :
    ((Printed.array text).answer stderr).message = String.ofList (strip text.toList) :=
  Runtime.message_silent _ hsilent

/-- With warnings behind it, it is no JSON. -/
theorem described_noisy {limit : ℕ} {text : String} {value : Json}
    (hloads : loads limit (String.ofList (strip text.toList)) = .ok value)
    (hvalue : value.isScalar = false) (hnoisy : ¬ Silent stderr) :
    loads limit ((Printed.array text).answer stderr).message = .error .invalid := by
  have hopens := JsonText.opens_of_loads hloads hvalue
  have hfront : (Printed.array text).text.toList.dropWhile isSpace ≠ [] := by
    intro hnil
    have hblank : strip text.toList = [] := by
      rw [strip, LineText.stripBy_eq, show text.toList.dropWhile isSpace = [] from hnil]
      rfl
    rw [hblank, loads, if_neg (by decide), JsonText.Machine.run_error rfl] at hloads
    cases hloads
  obtain ⟨blanks, hblanks⟩ := List.rdropWhile_prefix isSpace (text.toList.dropWhile isSpace)
  have hmessage : ((Printed.array text).answer stderr).message =
      String.ofList (strip text.toList) ++ String.ofList (blanks ++ warnings stderr) := by
    have hall : text.toList.dropWhile isSpace = strip text.toList ++ blanks := hblanks.symm
    rw [Runtime.message_noisy hfront hnoisy, ← String.ofList_append, ← List.append_assoc, ← hall]
    rfl
  rw [hmessage, JsonText.loads_append hloads hopens, if_neg]
  intro hskip
  obtain ⟨d, hd, hspace⟩ := Runtime.warnings_mem hnoisy
  rw [JsonText.skip, String.toList_ofList] at hskip
  have hjson := List.dropWhile_eq_nil_iff.mp hskip d (List.mem_append_right _ hd)
  rw [Runtime.isSpace_of_json hjson] at hspace
  cases hspace

end

/-! ### The program -/

section

variable {platform : DiscoveryPlatform} {manifest : ApplicationManifest} {runtime : ComposeRuntime}
  {daemon : DockerDaemon} {run : List String → Execution} {sdk : DockerSdk}

/-- Only containers with the label belong to the project. -/
theorem publishedPorts_found :
    publishedPorts platform manifest runtime (daemon.found runtime) =
      publishedPorts platform manifest runtime daemon.containers := by
  rw [publishedPorts, publishedPorts, DockerDaemon.found, List.filter_filter]
  congr 1
  refine List.filter_congr fun container _ => ?_
  rw [ComposeContainer.belongs]
  cases container.project == some (expectedProject runtime) <;> simp

theorem observed_found (hdigits : platform.ReadsDigits)
    (hresolves : ∀ container ∈ daemon.containers, container.Resolves platform) :
    observed platform manifest runtime
        ((daemon.found runtime).map fun container => (container.id, container.members)) =
      .ok (publishedPorts platform manifest runtime daemon.containers) := by
  have hread : observedFromContainers platform manifest runtime
      ((daemon.found runtime).map fun container => (container.id, container.members)) =
      .ok (publishedPorts platform manifest runtime (daemon.found runtime)) :=
    observed_published hdigits fun container hmem =>
      hresolves container (List.mem_of_mem_filter hmem)
  rw [observed, hread, publishedPorts_found]
  rfl

theorem inspected_found (containers : List ComposeContainer) :
    inspectedContainers platform (containers.map fun container => .obj container.members) =
      containers.map fun container => (container.id, container.members) := by
  rw [inspectedContainers, List.filterMap_map]
  have hitem : ∀ container : ComposeContainer,
      messageText platform.toPlatform (member? container.members "Id") = container.id := by
    intro container
    rw [container.id_eq]
    rfl
  simp only [Function.comp_def, hitem]
  exact congrFun List.filterMap_eq_map containers

theorem shortId_plain {container : ComposeContainer} (hmem : container ∈ daemon.containers) :
    PlainLine container.shortId := by
  obtain ⟨hne, hhex⟩ := daemon.ids container hmem
  constructor
  · intro hempty
    have hnil := congrArg String.toList hempty
    rw [ComposeContainer.shortId, String.toList_ofList] at hnil
    rcases List.take_eq_nil_iff.mp hnil with hzero | hnil
    · cases hzero
    · exact hne (String.toList_injective hnil)
  · intro c hc
    rw [ComposeContainer.shortId, String.toList_ofList] at hc
    have hall : ∀ c ∈ "0123456789abcdef".toList, isSpace c = false :=
      List.all_iff_forall_prop.mp (by decide)
    exact hall c (hhex c (List.mem_of_mem_take hc))

theorem found_plain : ∀ line ∈ (daemon.found runtime).map ComposeContainer.shortId,
    PlainLine line := by
  intro line hline
  obtain ⟨container, hmem, rfl⟩ := List.mem_map.mp hline
  exact shortId_plain (List.mem_of_mem_filter hmem)

/-- The containers that are described are the ones that were listed. -/
theorem described_found {containers described : List ComposeContainer}
    (hmem : ∀ container ∈ containers, container ∈ daemon.containers)
    (h : List.Forall₂ (fun name container => daemon.lookup name = some container)
      (containers.map ComposeContainer.shortId) described) : described = containers := by
  induction containers generalizing described with
  | nil =>
    cases h
    rfl
  | cons container containers ih =>
    obtain ⟨first, rest, hfirst, hrest, rfl⟩ := List.forall₂_cons_left_iff.mp h
    rw [daemon.named container (hmem container List.mem_cons_self)] at hfirst
    rw [Option.some.inj hfirst, ih (fun c hc => hmem c (List.mem_cons_of_mem _ hc)) hrest]

theorem succeeded_exited {execution : Execution} (h : (runCommand execution).succeeded = true) :
    ∃ stdout stderr, execution = .exited 0 stdout stderr := by
  cases execution with
  | unavailable error => cases h
  | timedOut => cases h
  | exited returncode stdout stderr =>
    have hzero : returncode = 0 := of_decide_eq_true h
    exact ⟨stdout, stderr, by rw [hzero]⟩

/-- The program prints no warnings and does not fail. -/
def DockerDaemon.Quiet (daemon : DockerDaemon) (runtime : ComposeRuntime)
    (run : List String → Execution) : Prop :=
  ∀ command ∈ [psCommand runtime,
      inspectCommand ((daemon.found runtime).map ComposeContainer.shortId)],
    ∃ stdout stderr, run command = .exited 0 stdout stderr ∧ Silent stderr

theorem DockerDaemon.Quiet.succeeded (h : daemon.Quiet runtime run) {command : List String}
    (hmem : command ∈ [psCommand runtime,
      inspectCommand ((daemon.found runtime).map ComposeContainer.shortId)]) :
    (runCommand (run command)).succeeded = true := by
  obtain ⟨stdout, stderr, hrun, -⟩ := h command hmem
  rw [hrun]
  rfl

theorem DockerDaemon.Quiet.silent (h : daemon.Quiet runtime run) {command : List String}
    (hmem : command ∈ [psCommand runtime,
      inspectCommand ((daemon.found runtime).map ComposeContainer.shortId)])
    {stdout stderr : List UInt8} (hrun : run command = .exited 0 stdout stderr) :
    Silent stderr := by
  obtain ⟨_, _, hsame, hsilent⟩ := h command hmem
  rw [hrun] at hsame
  cases hsame
  exact hsilent

/-- Asked for a name that it does not know, the program fails. -/
theorem inspectCli_unknown (hcli : daemon.AnswersCli platform.recursionLimit runtime run)
    {names : List String} (hunknown : ∃ name ∈ names, daemon.lookup name = none) :
    ∃ e, inspectCli platform manifest runtime run names = .error e := by
  rw [inspectCli]
  cases hinspected : (runCommand (run (inspectCommand names))).succeeded with
  | false => exact ⟨_, rfl⟩
  | true =>
    obtain ⟨stdout, stderr, hrun⟩ := succeeded_exited hinspected
    obtain ⟨described, _, hnames, -, -⟩ := hcli.inspect names stdout stderr hrun
    obtain ⟨name, hname, hnone⟩ := hunknown
    obtain ⟨i, hi, rfl⟩ := List.getElem_of_mem hname
    have hknown := hnames.get hi (hnames.length_eq ▸ hi)
    rw [List.get_eq_getElem, hnone] at hknown
    cases hknown

/-- Asked for the containers of the project, it describes them. -/
theorem inspectCli_found (hdigits : platform.ReadsDigits)
    (hresolves : ∀ container ∈ daemon.containers, container.Resolves platform)
    (hcli : daemon.AnswersCli platform.recursionLimit runtime run) :
    inspectCli platform manifest runtime run
        ((daemon.found runtime).map ComposeContainer.shortId) =
        .ok (publishedPorts platform manifest runtime daemon.containers) ∨
      (∃ e, inspectCli platform manifest runtime run
        ((daemon.found runtime).map ComposeContainer.shortId) = .error e) ∧
        ¬ daemon.Quiet runtime run := by
  rw [inspectCli]
  cases hinspected : (runCommand (run (inspectCommand
      ((daemon.found runtime).map ComposeContainer.shortId)))).succeeded with
  | false =>
    refine .inr ⟨⟨_, rfl⟩, fun hquiet => ?_⟩
    rw [hquiet.succeeded (List.mem_cons_of_mem _ List.mem_cons_self)] at hinspected
    cases hinspected
  | true =>
    obtain ⟨stdout, stderr, hrun⟩ := succeeded_exited hinspected
    obtain ⟨described, text, hnames, rfl, hloads⟩ := hcli.inspect _ stdout stderr hrun
    have hmem : ∀ container ∈ daemon.found runtime, container ∈ daemon.containers :=
      fun container hfound => List.mem_of_mem_filter hfound
    obtain rfl := described_found hmem hnames
    have hanswer : runCommand (run (inspectCommand
        ((daemon.found runtime).map ComposeContainer.shortId))) =
        (Printed.array text).answer stderr := by
      rw [hrun]
      rfl
    rw [hanswer]
    by_cases hsilent : Silent stderr
    · left
      rw [described_silent text hsilent, hloads]
      show observed platform manifest runtime (inspectedContainers platform _) = _
      rw [inspected_found]
      exact observed_found hdigits hresolves
    · right
      rw [described_noisy hloads rfl hsilent]
      exact ⟨⟨_, rfl⟩, fun hquiet =>
        hsilent (hquiet.silent (List.mem_cons_of_mem _ List.mem_cons_self) hrun)⟩

/-- The program gives the published ports; where it does not, it fails or has printed warnings. -/
theorem cli_never_wrong (hdigits : platform.ReadsDigits)
    (hresolves : ∀ container ∈ daemon.containers, container.Resolves platform)
    (hcli : daemon.AnswersCli platform.recursionLimit runtime run) :
    discoverCli platform manifest runtime run =
        .ok (publishedPorts platform manifest runtime daemon.containers) ∨
      (∃ e, discoverCli platform manifest runtime run = .error e) ∧ ¬ daemon.Quiet runtime run := by
  rw [discoverCli]
  cases hlisted : (runCommand (run (psCommand runtime))).succeeded with
  | false =>
    refine .inr ⟨⟨_, rfl⟩, fun hquiet => ?_⟩
    rw [hquiet.succeeded List.mem_cons_self] at hlisted
    cases hlisted
  | true =>
    obtain ⟨stdout, stderr, hps⟩ := succeeded_exited hlisted
    obtain ⟨rfl, hunnamed⟩ := hcli.ps stdout stderr hps
    have hanswer : runCommand (run (psCommand runtime)) =
        (Printed.lines ((daemon.found runtime).map ComposeContainer.shortId)).answer stderr := by
      rw [hps]
      rfl
    rw [hanswer]
    by_cases hsilent : Silent stderr
    · simp only [Bool.true_eq_false, if_false, read_silent found_plain hsilent]
      split_ifs with hnone
      · left
        rw [List.map_eq_nil_iff] at hnone
        rw [← publishedPorts_found, hnone]
        rfl
      · exact inspectCli_found hdigits hresolves hcli
    · obtain ⟨name, hname, hinfix⟩ := read_noisy found_plain hsilent
      have hunknown : daemon.lookup name = none := by
        by_contra hknown
        exact hunnamed name (Option.isSome_iff_ne_none.mpr hknown) hinfix
      right
      simp only [Bool.true_eq_false, if_false]
      rw [if_neg (List.ne_nil_of_mem hname)]
      exact ⟨inspectCli_unknown hcli ⟨name, hname, hunknown⟩,
        fun hquiet => hsilent (hquiet.silent List.mem_cons_self hps)⟩

/-! ### The package -/

/-- Of an id only the first twelve characters are kept. -/
theorem observed_shortId (containers : List ComposeContainer) :
    observed platform manifest runtime
        (containers.map fun container => (container.shortId, container.members)) =
      observed platform manifest runtime
        (containers.map fun container => (container.id, container.members)) := by
  have hbinding (container : ComposeContainer) :
      observedBinding platform manifest container.shortId =
        observedBinding platform manifest container.id := by
    have htake : container.shortId.toList.take 12 = container.id.toList.take 12 := by
      rw [ComposeContainer.shortId, String.toList_ofList, List.take_take, Nat.min_self]
    funext labels protocol containerPort binding
    rw [observedBinding, observedBinding, htake]
  have hcontainer (container : ComposeContainer) :
      observedContainer platform manifest runtime (container.shortId, container.members) =
        observedContainer platform manifest runtime (container.id, container.members) := by
    have hentry : observedEntry platform manifest container.shortId =
        observedEntry platform manifest container.id := by
      funext labels entry
      rw [observedEntry, observedEntry, hbinding]
    simp only [observedContainer, hentry]
  simp only [observed, observedFromContainers, List.mapM_map, Function.comp_def, hcontainer]

/-- The package gives the published ports, or it raises. -/
theorem sdk_never_wrong (hdigits : platform.ReadsDigits)
    (hresolves : ∀ container ∈ daemon.containers, container.Resolves platform)
    (hsdk : daemon.AnswersSdk runtime sdk) :
    discoverSync platform manifest runtime sdk =
        .ok (publishedPorts platform manifest runtime daemon.containers) ∨
      (∃ e, discoverSync platform manifest runtime sdk = .error e) ∧
        ¬ (sdk.fromEnv.isOk ∧ (sdk.list (projectLabel runtime)).isOk ∧ sdk.close.isOk) := by
  unfold discoverSync
  cases hfromEnv : sdk.fromEnv with
  | error message => exact .inr ⟨⟨.sdk message, rfl⟩, fun h => nomatch h.1⟩
  | ok _ =>
    cases hclose : sdk.close with
    | error message => exact .inr ⟨⟨.sdk message, rfl⟩, fun h => nomatch h.2.2⟩
    | ok _ =>
      cases hlist : sdk.list (projectLabel runtime) with
      | error message => exact .inr ⟨⟨.sdk message, rfl⟩, fun h => nomatch h.2.1⟩
      | ok containers =>
        left
        show observed platform manifest runtime containers = _
        rw [hsdk containers hlist, observed_shortId]
        exact observed_found hdigits hresolves

/-! ### Both -/

/-- **Discovery gives the published ports or raises a `PortDiscoveryError`**, whatever package and
program do; it gives the ports where one of them works. -/
theorem compose_discovery_exact (hdigits : platform.ReadsDigits)
    (hresolves : ∀ container ∈ daemon.containers, container.Resolves platform)
    (hsdk : daemon.AnswersSdk runtime sdk)
    (hcli : daemon.AnswersCli platform.recursionLimit runtime run)
    (describe : PyError → String) :
    (discover platform manifest runtime describe sdk run =
        .ok (publishedPorts platform manifest runtime daemon.containers) ∨
      ∃ message, discover platform manifest runtime describe sdk run =
        .error (.discovery message)) ∧
      ((sdk.fromEnv.isOk ∧ (sdk.list (projectLabel runtime)).isOk ∧ sdk.close.isOk) ∨
          daemon.Quiet runtime run →
        discover platform manifest runtime describe sdk run =
          .ok (publishedPorts platform manifest runtime daemon.containers)) := by
  have hsync := @sdk_never_wrong platform manifest runtime daemon sdk hdigits hresolves hsdk
  have hprogram := @cli_never_wrong platform manifest runtime daemon run hdigits hresolves hcli
  rw [discover]
  rcases hsync with hports | ⟨⟨sdkError, hraised⟩, hfails⟩
  · rw [hports]
    exact ⟨.inl rfl, fun _ => rfl⟩
  · rw [hraised]
    rcases hprogram with hports | ⟨⟨cliError, hraised'⟩, hnoisy⟩
    · rw [hports]
      exact ⟨.inl rfl, fun _ => rfl⟩
    · rw [hraised']
      refine ⟨.inr ⟨_, rfl⟩, fun hworks => ?_⟩
      exact absurd hworks (not_or.mpr ⟨hfails, hnoisy⟩)

end

/-! ### A project that only the program finds -/

def plainDiscovery : DiscoveryPlatform where
  toComposePlatform := Logs.plainComposePlatform
  digitChar := Char.isDigit
  resolve text :=
    if text = "/srv/mixed" then .ok Runtime.stackAdapter.runtime.workingDir else .error .osError

theorem plainDiscovery_digits : plainDiscovery.ReadsDigits :=
  fun _ hc => ⟨hc, if_pos hc⟩

def stackManifest : ApplicationManifest :=
  { ollama with
    id := "mixed-stack"
    runtime := .compose Runtime.stackAdapter.runtime
    validApplicationId := by decide }

def stackBinding : HostBinding where
  ip := "0.0.0.0"
  port := "8080"
  members := [("HostIp", .str "0.0.0.0"), ("HostPort", .str "8080")]
  ip_eq := rfl
  port_eq := rfl
  text := ⟨by decide, List.all_iff_forall_prop.mp (by decide), by decide⟩
  valid := by decide

def stackPort : ExposedPort where
  number := "80"
  protocol := "tcp"
  bindings := [stackBinding]
  value := .arr [.obj stackBinding.members]
  text := ⟨by decide, List.all_iff_forall_prop.mp (by decide), by decide⟩
  value_eq := .inl rfl

def stackContainer : ComposeContainer where
  id := "0123456789abcdef"
  project := some "mixed"
  workingDir := some "/srv/mixed"
  service := some "web"
  ports := [stackPort]
  labels := [("com.docker.compose.project", .str "mixed"),
    ("com.docker.compose.project.working_dir", .str "/srv/mixed"),
    ("com.docker.compose.service", .str "web")]
  config := [("Labels", .obj [("com.docker.compose.project", .str "mixed"),
    ("com.docker.compose.project.working_dir", .str "/srv/mixed"),
    ("com.docker.compose.service", .str "web")])]
  settings := [("Ports", .obj [("80/tcp", .arr [.obj stackBinding.members])])]
  members := [("Id", .str "0123456789abcdef"),
    ("Config", .obj [("Labels", .obj [("com.docker.compose.project", .str "mixed"),
      ("com.docker.compose.project.working_dir", .str "/srv/mixed"),
      ("com.docker.compose.service", .str "web")])]),
    ("NetworkSettings", .obj [("Ports", .obj [("80/tcp", .arr [.obj stackBinding.members])])])]
  id_eq := rfl
  config_eq := rfl
  labels_eq := rfl
  project_eq := rfl
  workingDir_eq := rfl
  service_eq := rfl
  settings_eq := rfl
  ports_eq := rfl
  keys := by decide

/-- What `docker inspect` prints of it, between the brackets. -/
def stackBody : List Char :=
  "\x7b\"Id\":\"0123456789abcdef\",\"Config\":\x7b\"Labels\":\x7b".toList ++
  "\"com.docker.compose.project\":\"mixed\",".toList ++
  "\"com.docker.compose.project.working_dir\":\"/srv/mixed\",".toList ++
  "\"com.docker.compose.service\":\"web\"\x7d\x7d,\"NetworkSettings\":".toList ++
  "\x7b\"Ports\":\x7b\"80/tcp\":[\x7b\"HostIp\":\"0.0.0.0\",".toList ++
  "\"HostPort\":\"8080\"\x7d]\x7d\x7d\x7d".toList

def stackText : String := String.ofList ('[' :: stackBody ++ [']'])

def stackDaemon : DockerDaemon where
  containers := [stackContainer]
  lookup name := if name = stackContainer.shortId then some stackContainer else none
  ids := by
    intro container hmem
    rw [List.mem_singleton.mp hmem]
    exact ⟨by decide, List.all_iff_forall_prop.mp (by decide)⟩
  named := by
    intro container hmem
    rw [List.mem_singleton.mp hmem, if_pos rfl]

def stackRun (command : List String) : Execution :=
  if command = psCommand Runtime.stackAdapter.runtime then
    .exited 0 (Utf8Text.encode (Printed.lines [stackContainer.shortId]).text.toList) []
  else if command = inspectCommand [stackContainer.shortId] then
    .exited 0 (Utf8Text.encode stackText.toList) []
  else .exited 1 [] []

set_option maxRecDepth 8000 in
theorem stackText_loads : loads 1000 (String.ofList (strip stackText.toList)) =
    .ok (.arr [.obj stackContainer.members]) := by
  have hstrip : strip ('[' :: stackBody ++ [']']) = '[' :: stackBody ++ [']'] := by
    rw [strip, LineText.stripBy_eq, List.cons_append, List.dropWhile_cons_of_neg (by decide),
      ← List.cons_append, List.rdropWhile_concat_neg _ _ _ (by decide)]
  have hrun : JsonText.Machine.runFor 1000 40 ⟨[], .value, '[' :: stackBody ++ [']']⟩ =
      some (.ok (.arr [.obj stackContainer.members])) := rfl
  rw [stackText, String.toList_ofList, hstrip]
  exact JsonText.loads_of_runFor (by rw [String.toList_ofList]; decide)
    (by rw [String.toList_ofList]; exact hrun)

theorem stackRun_answers : stackDaemon.AnswersCli 1000 Runtime.stackAdapter.runtime stackRun := by
  have hps : stackRun (psCommand Runtime.stackAdapter.runtime) =
      .exited 0 (Utf8Text.encode (Printed.lines [stackContainer.shortId]).text.toList) [] :=
    if_pos rfl
  constructor
  · intro stdout stderr hrun
    rw [hps] at hrun
    cases hrun
    refine ⟨rfl, fun name hname hinfix => ?_⟩
    have hempty : name = "" := String.toList_injective (List.eq_nil_of_infix_nil hinfix)
    rw [hempty] at hname
    exact absurd hname (by decide)
  · intro names stdout stderr hrun
    have hother : inspectCommand names ≠ psCommand Runtime.stackAdapter.runtime := by
      intro hsame
      have hsecond : some "inspect" = some "ps" := congrArg (fun command => command[1]?) hsame
      exact absurd hsecond (by decide)
    rw [stackRun, if_neg hother] at hrun
    split_ifs at hrun with hinspect
    · injection hrun with _ hout herr
      subst hout herr
      obtain rfl : names = [stackContainer.shortId] := List.append_cancel_left hinspect
      exact ⟨[stackContainer], stackText,
        .cons (stackDaemon.named stackContainer List.mem_cons_self) .nil, rfl, stackText_loads⟩
    · injection hrun with hcode
      exact absurd hcode (by decide)

theorem compose_discovery_exact_stack :
    discover plainDiscovery stackManifest Runtime.stackAdapter.runtime (fun _ => "")
        ⟨.error "No module named 'docker'", fun _ => .error "", .ok ()⟩ stackRun =
      .ok [stackBinding.observed stackManifest stackContainer stackPort .tcp] := by
  have hresolves : ∀ container ∈ stackDaemon.containers, container.Resolves plainDiscovery := by
    intro container hmem dir hdir _
    rw [List.mem_singleton.mp hmem] at hdir
    obtain rfl := Option.some.inj hdir
    exact ⟨Runtime.stackAdapter.runtime.workingDir, rfl⟩
  have hexact := (@compose_discovery_exact plainDiscovery stackManifest
    Runtime.stackAdapter.runtime stackDaemon stackRun
    ⟨.error "No module named 'docker'", fun _ => .error "", .ok ()⟩ plainDiscovery_digits hresolves
    (fun _ hlist => nomatch hlist) stackRun_answers fun _ => "").2
  have hquiet : stackDaemon.Quiet Runtime.stackAdapter.runtime stackRun := by
    intro command hcommand
    rcases List.mem_cons.mp hcommand with rfl | hcommand
    · exact ⟨_, _, if_pos rfl, by decide⟩
    · rw [List.mem_singleton.mp hcommand]
      exact ⟨_, _, rfl, by decide⟩
  rw [hexact (.inr hquiet)]
  rfl

end MachineDeck.Ports

import MachineDeck.UnitCodes

/-!
# Accepted units

Which manifests are rendered: validation never refuses what rendering puts together, unless a
value ends a line or the text is too long.

* `unitText` — the text that is put together for a manifest;
* `addLine_assignment`, `outline_unitLines` — what validation finds in its lines;
* `renderUserUnit_eq` — a manifest that passes the checks of its paths, whose values end no line
  and whose text fits is rendered.
-/

namespace MachineDeck.Systemd

open LineText Traversals

/-! ### The text of a manifest -/

def quoted (escapeDollar : Bool) (value : String) : String :=
  "\"" ++ escaped escapeDollar value ++ "\""

def escapedPath (path : String) : String :=
  String.ofList (pathCode.encodeAll path.toUTF8.data.toList)

/-- The text that is put together, when no value is refused. -/
def unitText (manifest : ApplicationManifest) (runtime : ProcessRuntime) : String :=
  "\n".intercalate (unitLines ("machinedeck-" ++ manifest.id ++ ".service")
    (escapedPath runtime.workingDir.text)
    (" ".intercalate (runtime.command.map (quoted true)))
    ((sortedItems manifest.environment).map fun item => quoted false (item.1 ++ "=" ++ item.2)))

/-- A text of plain characters. -/
def Plain (text : String) : Prop :=
  ∀ c ∈ text.toList, plainChar c = true

instance (text : String) : Decidable (Plain text) :=
  inferInstanceAs (Decidable (∀ c ∈ text.toList, plainChar c = true))

theorem Plain.append {s t : String} (hs : Plain s) (ht : Plain t) : Plain (s ++ t) := by
  intro c hc
  rw [String.toList_append] at hc
  rcases List.mem_append.mp hc with hc | hc
  · exact hs c hc
  · exact ht c hc

theorem Plain.intercalate {separator : String} (hseparator : Plain separator)
    {pieces : List String} (hpieces : ∀ piece ∈ pieces, Plain piece) :
    Plain (separator.intercalate pieces) := by
  intro c hc
  rcases mem_intercalate hc with hc | ⟨piece, hpiece, hc⟩
  · exact hseparator c hc
  · exact hpieces piece hpiece c hc

theorem not_plain : ∀ c ∈ '\x00' :: lineBoundaries, plainChar c = false := by decide

theorem plainChar_or (c : Char) : plainChar c = true ∨ c ∈ '\x00' :: lineBoundaries := by
  by_cases hc : c ∈ '\x00' :: lineBoundaries
  · exact .inr hc
  · obtain ⟨hnull, hboundary⟩ := List.ne_and_not_mem_of_not_mem_cons hc
    exact .inl (by simp [plainChar, lineBoundary, hnull, hboundary])

/-- Plain characters are allowed in values. -/
theorem Plain.allowed {text : String} (h : Plain text) :
    text.toList.all environmentChar = true := by
  have hcontrol : ∀ d ∈ ['\n', '\r', '\x00'], plainChar d = false := by decide
  rw [List.all_eq_true]
  intro c hc
  have hne : ∀ d ∈ ['\n', '\r', '\x00'], c ≠ d := by
    rintro d hd rfl
    exact Bool.false_ne_true ((hcontrol c hd).symm.trans (h c hc))
  simp [environmentChar, hne]

theorem plain_quoted {escapeDollar : Bool} {value : String} (h : Plain value) :
    Plain (quoted escapeDollar value) := by
  have hcode : ∀ c ∈ ['"', '\\', '%', '$'], plainChar c = true := by decide
  have htext : (quoted escapeDollar value).toList =
      (quotedWord escapeDollar).encode value.toList := by
    simp [quoted, toList_escaped, quotedWord, PrefixCode.delimited]
  intro c hc
  rw [htext] at hc
  rcases mem_quotedWord hc with hc | hc
  · exact h c hc
  · exact hcode c hc

theorem plain_escapedPath (path : String) : Plain (escapedPath path) := by
  intro c hc
  rw [escapedPath, String.toList_ofList] at hc
  exact plain_path path c hc

/-- The name of a variable is plain. -/
theorem plain_environmentName {name : String} (h : environmentName name = true) : Plain name := by
  have hchar : ∀ c ∈ '\x00' :: lineBoundaries,
      (upperOrUnderscore c || asciiDigit c) = false := by decide
  have hname : ∀ c ∈ name.toList, (upperOrUnderscore c || asciiDigit c) = true := by
    unfold environmentName at h
    intro c hc
    cases hchars : name.toList with
    | nil =>
        rw [hchars] at hc
        cases hc
    | cons d ds =>
        rw [hchars] at h hc
        simp only [Bool.and_eq_true, List.all_eq_true] at h
        rcases List.mem_cons.mp hc with rfl | hc
        · rw [h.1, Bool.true_or]
        · exact h.2 c hc
  intro c hc
  rcases plainChar_or c with hplain | hspecial
  · exact hplain
  · have hallowed := hname c hc
    rw [hchar c hspecial] at hallowed
    cases hallowed

/-! ### What validation finds -/

theorem allowedDirective_first : ∀ name ∈ allowedDirectives, '=' ∉ name.toList ∧
    name.toList.head?.any (fun c => c != '#' && c != '[') = true := by decide

/-- A line that assigns to an allowed name. -/
theorem addLine_assignment (outline : UnitOutline) {name : String}
    (hname : name ∈ allowedDirectives) (value : String) :
    outline.addLine (name ++ "=" ++ value) =
      .ok { outline with directives := outline.directives ++ [name] } := by
  obtain ⟨hequals, hfirst⟩ := allowedDirective_first name hname
  have hpartition : partition (name ++ "=" ++ value) '=' = (name, some value) :=
    partition_append hequals
  cases hchars : name.toList with
  | nil =>
      rw [hchars] at hfirst
      cases hfirst
  | cons c cs =>
      rw [hchars] at hfirst
      have hc : c ≠ '#' ∧ c ≠ '[' := by simpa using hfirst
      rw [UnitOutline.addLine, hpartition]
      simp [hchars, hc, hname]

theorem addLine_environment (outline : UnitOutline) (values : List String) :
    (values.map fun value => "Environment=" ++ value).foldlM UnitOutline.addLine outline =
      .ok { outline with
              directives := outline.directives ++ List.replicate values.length "Environment" } := by
  induction values generalizing outline with
  | nil => simp [pure, Except.pure]
  | cons value values ih =>
      have hline : outline.addLine ("Environment=" ++ value) =
          .ok { outline with directives := outline.directives ++ ["Environment"] } :=
        @addLine_assignment outline "Environment" (by decide) value
      rw [List.map_cons, List.foldlM_cons, hline]
      show (values.map fun value => "Environment=" ++ value).foldlM UnitOutline.addLine _ = _
      rw [ih]
      simp [List.replicate_succ]

/-- The lines of a unit without the empty text after its last newline. -/
theorem unitLines_snoc (unitName workingDirectory execStart : String) (values : List String) :
    ∃ lines, unitLines unitName workingDirectory execStart values = lines ++ [""] ∧
      lines.foldlM UnitOutline.addLine {} = .ok
        { sections := ["[Unit]", "[Service]", "[Install]"]
          directives := ["Description", "After", "Wants", "Type", "WorkingDirectory",
            "ExecStart"] ++ List.replicate values.length "Environment" ++
            ["KillMode", "TimeoutStartSec", "TimeoutStopSec", "Restart", "NoNewPrivileges",
             "WantedBy"] } := by
  let first := ["# Generated by MachineDeck. Manual changes will be detected and replaced.",
    "[Unit]"]
  let between := ["After=network-online.target", "Wants=network-online.target", "", "[Service]",
    "Type=simple"]
  let last := ["KillMode=control-group", "TimeoutStartSec=120", "TimeoutStopSec=30",
    "Restart=no", "NoNewPrivileges=true", "", "[Install]", "WantedBy=default.target"]
  have hdescription : ∀ outline : UnitOutline,
      outline.addLine ("Description=MachineDeck managed application " ++ unitName) =
        .ok { outline with directives := outline.directives ++ ["Description"] } := by
    intro outline
    have hline : "Description=MachineDeck managed application " ++ unitName =
        "Description" ++ "=" ++ ("MachineDeck managed application " ++ unitName) := by
      rw [← String.append_assoc]
      rfl
    rw [hline]
    exact addLine_assignment outline (by decide) _
  have hdirectory : ∀ outline : UnitOutline,
      outline.addLine ("WorkingDirectory=" ++ workingDirectory) =
        .ok { outline with directives := outline.directives ++ ["WorkingDirectory"] } :=
    fun outline => @addLine_assignment outline "WorkingDirectory" (by decide) workingDirectory
  have hcommand : ∀ outline : UnitOutline, outline.addLine ("ExecStart=" ++ execStart) =
      .ok { outline with directives := outline.directives ++ ["ExecStart"] } :=
    fun outline => @addLine_assignment outline "ExecStart" (by decide) execStart
  have hfirst : first.foldlM UnitOutline.addLine {} = .ok { sections := ["[Unit]"] } := rfl
  have hbetween : between.foldlM UnitOutline.addLine
        { sections := ["[Unit]"], directives := ["Description"] } =
      .ok { sections := ["[Unit]", "[Service]"],
            directives := ["Description", "After", "Wants", "Type"] } := rfl
  have hlast : ∀ outline : UnitOutline, last.foldlM UnitOutline.addLine outline =
      .ok { sections := outline.sections ++ ["[Install]"],
            directives := outline.directives ++ ["KillMode"] ++ ["TimeoutStartSec"] ++
              ["TimeoutStopSec"] ++ ["Restart"] ++ ["NoNewPrivileges"] ++ ["WantedBy"] } :=
    fun _ => rfl
  have hbind : ∀ (outline : UnitOutline) (k : UnitOutline → Except UnitError UnitOutline),
      (Except.ok outline >>= k) = k outline := fun _ _ => rfl
  refine ⟨first ++ ("Description=MachineDeck managed application " ++ unitName) ::
    (between ++ ("WorkingDirectory=" ++ workingDirectory) :: ("ExecStart=" ++ execStart) ::
      (values.map (fun value => "Environment=" ++ value) ++ last)), ?_, ?_⟩
  · simp [unitLines, first, between, last]
  · rw [List.foldlM_append, hfirst, hbind, List.foldlM_cons, hdescription, hbind,
      List.foldlM_append]
    show (between.foldlM UnitOutline.addLine
      { sections := ["[Unit]"], directives := ["Description"] } >>= _) = _
    rw [hbetween, hbind, List.foldlM_cons, hdirectory, hbind, List.foldlM_cons, hcommand, hbind,
      List.foldlM_append, addLine_environment, hbind, hlast]
    simp

/-! ### What is rendered -/

theorem validateRenderedUnit_unitLines {unitName workingDirectory execStart : String}
    {values : List String}
    (hplain : ∀ line ∈ unitLines unitName workingDirectory execStart values, Plain line)
    (hsize : ("\n".intercalate
      (unitLines unitName workingDirectory execStart values)).toUTF8.size ≤ maxUnitBytes) :
    validateRenderedUnit
      ("\n".intercalate (unitLines unitName workingDirectory execStart values)) = .ok () := by
  obtain ⟨lines, hlines, hfold⟩ :=
    unitLines_snoc unitName workingDirectory execStart values
  have hne : lines ≠ [] := by
    rintro rfl
    exact absurd (congrArg List.length hlines) (by simp [unitLines])
  have hlast := getLast_intercalate hne
  have hsplit : splitlines ("\n".intercalate (lines ++ [""])) = lines := by
    apply splitlines_intercalate
    intro line hline c hc
    have hmem : line ∈ unitLines unitName workingDirectory execStart values := by
      rw [hlines]
      exact List.mem_append_left _ hline
    have hchar := hplain line hmem c hc
    simp only [plainChar, Bool.and_eq_true, Bool.not_eq_true'] at hchar
    exact hchar.1
  have habsent : ∀ c ∈ ['\r', '\x00'], c ∉
      ("\n".intercalate (unitLines unitName workingDirectory execStart values)).toList := by
    have hspecial : ∀ c ∈ ['\r', '\x00'], plainChar c = false ∧ c ∉ "\n".toList := by decide
    intro c hc hmem
    obtain ⟨hchar, hseparator⟩ := hspecial c hc
    rcases mem_intercalate hmem with hmem | ⟨line, hline, hmem⟩
    · exact hseparator hmem
    · rw [hplain line hline c hmem] at hchar
      cases hchar
  have hreturn := habsent '\r' (by decide)
  have hnull := habsent '\x00' (by decide)
  rw [hlines] at hsize hreturn hnull ⊢
  have hcount : ∀ required ∈ ["WorkingDirectory", "ExecStart", "KillMode"],
      (["Description", "After", "Wants", "Type", "WorkingDirectory", "ExecStart"] ++
        List.replicate values.length "Environment" ++
        ["KillMode", "TimeoutStartSec", "TimeoutStopSec", "Restart", "NoNewPrivileges",
         "WantedBy"]).count required = 1 := by
    intro required hrequired
    have hother : required ≠ "Environment" := by
      rintro rfl
      revert hrequired
      decide
    rw [List.count_append, List.count_append, List.count_replicate, if_neg (by simpa using hother.symm)]
    revert required
    decide
  have hpass : ∀ {condition : Bool} {message : String} {k : Unit → Except UnitError Unit},
      condition = true → (require condition message >>= k) = k () := by
    rintro _ _ _ rfl
    rfl
  have hcontrol : (some '\n' == some '\n' &&
      !("\n".intercalate (lines ++ [""])).toList.contains '\r' &&
      !("\n".intercalate (lines ++ [""])).toList.contains '\x00') = true := by
    simp only [List.contains_eq_mem, hreturn, hnull]
    decide
  rw [validateRenderedUnit, hsplit, hfold, hlast, hpass (decide_eq_true hsize), hpass hcontrol]
  show (require _ _ >>= _) = _
  rw [hpass (beq_iff_eq.mpr (hcount "WorkingDirectory" (by decide)))]
  show (require _ _ >>= _) = _
  rw [hpass (beq_iff_eq.mpr (hcount "ExecStart" (by decide)))]
  show (require _ _ >>= _) = _
  rw [hpass (beq_iff_eq.mpr (hcount "KillMode" (by decide)))]
  rfl

theorem quote_eq {escapeDollar : Bool} {value : String} (h : Plain value) :
    quote escapeDollar value = .ok (quoted escapeDollar value) := by
  rw [quote, rejectControlCharacters, h.allowed]
  rfl

/-- The name of the unit of a valid application is its identifier between fixed texts. -/
theorem unitNameFor_eq {id : String} (h : applicationId id = true) :
    unitNameFor id = .ok ("machinedeck-" ++ id ++ ".service") := by
  simp only [applicationId, Bool.and_eq_true, decide_eq_true_eq] at h
  obtain ⟨⟨⟨⟨hlength, -⟩, hall⟩, hfirst⟩, hlast⟩ := h
  have hhyphen : lowerOrDigit '-' = false := by decide
  have hends : ∀ c : Option Char, c.any lowerOrDigit = true → (c != some '-') = true := by
    intro c hc
    rw [bne_iff_ne]
    rintro rfl
    rw [Option.any_some, hhyphen] at hc
    cases hc
  have hne : id.toList.isEmpty = false := by
    rw [List.isEmpty_eq_false_iff]
    rintro hnil
    rw [hnil] at hlength
    exact absurd hlength (by decide)
  rw [unitNameFor, hne, hall, hends _ hfirst, hends _ hlast]
  rfl

theorem plain_unitName {id : String} (h : applicationId id = true) :
    Plain ("machinedeck-" ++ id ++ ".service") := by
  have hchar : ∀ c ∈ '\x00' :: lineBoundaries, (lowerOrDigit c || c == '-') = false := by decide
  have hfirst : Plain "machinedeck-" := by decide
  have hlast : Plain ".service" := by decide
  simp only [applicationId, Bool.and_eq_true, decide_eq_true_eq] at h
  have hall := List.all_eq_true.mp h.1.1.2
  refine (hfirst.append fun c hc => ?_).append hlast
  rcases plainChar_or c with hplain | hspecial
  · exact hplain
  · have hallowed := hall c hc
    rw [hchar c hspecial] at hallowed
    cases hallowed

/-- **What is rendered**: a manifest that passes the checks of its paths, whose values are plain
and whose text fits. -/
theorem renderUserUnit_eq {host : HostPaths} {manifest : ApplicationManifest}
    {runtime : ProcessRuntime} (hprocess : manifest.runtime = .process runtime)
    (hvalid : (validateManifestPaths host manifest).valid = true)
    (hpath : runtime.workingDir.text.toList.all environmentChar = true)
    (hcommand : ∀ argument ∈ runtime.command, Plain argument)
    (henvironment : ∀ entry ∈ manifest.environment.entries, Plain entry.2)
    (hsize : (unitText manifest runtime).toUTF8.size ≤ maxUnitBytes) :
    renderUserUnit host manifest = .ok (unitText manifest runtime) := by
  have hword : ∀ argument ∈ runtime.command, Plain (quoted true argument) :=
    fun argument hargument => plain_quoted (hcommand argument hargument)
  have hitem : ∀ item ∈ sortedItems manifest.environment, Plain item.2 ∧
      Plain (item.1 ++ "=" ++ item.2) := by
    intro item hitem
    have hmem := (sortedItems_perm manifest.environment).mem_iff.mp hitem
    have hequals : Plain "=" := by decide
    have hvalue := henvironment item hmem
    have hname := plain_environmentName (manifest.environment.validNames item hmem)
    exact ⟨hvalue, (hname.append hequals).append hvalue⟩
  have hname := unitNameFor_eq manifest.validApplicationId
  have hwords : runtime.command.mapM (quote true) = .ok (runtime.command.map (quoted true)) :=
    mapM_eq fun argument hargument => quote_eq (hcommand argument hargument)
  have hdirectory : escapePath runtime.workingDir.text =
      .ok (escapedPath runtime.workingDir.text) := by
    rw [escapePath, rejectControlCharacters, hpath]
    rfl
  have hvalues : (sortedItems manifest.environment).mapM environmentValue =
      .ok ((sortedItems manifest.environment).map fun item =>
        quoted false (item.1 ++ "=" ++ item.2)) := by
    apply mapM_eq
    intro item hmem
    obtain ⟨hvalue, htext⟩ := hitem item hmem
    rw [environmentValue, rejectControlCharacters, hvalue.allowed]
    exact quote_eq htext
  have hspace : Plain " " := by decide
  have haccepted : validateRenderedUnit (unitText manifest runtime) = .ok () := by
    apply validateRenderedUnit_unitLines
    · intro line hline c hc
      rcases char_unitLines hline hc with h | h | h | h | ⟨value, hvalue, h⟩
      · exact h
      · exact plain_unitName manifest.validApplicationId c h
      · exact plain_escapedPath _ c h
      · refine hspace.intercalate (fun word hmem => ?_) c h
        obtain ⟨argument, hargument, rfl⟩ := List.mem_map.mp hmem
        exact hword argument hargument
      · obtain ⟨item, hmem, rfl⟩ := List.mem_map.mp hvalue
        exact plain_quoted (hitem item hmem).2 c h
    · exact hsize
  have hbind : ∀ {α β : Type} (a : α) (k : α → Except UnitError β),
      (Except.ok a >>= k) = k a := fun _ _ => rfl
  unfold renderUserUnit
  rw [hprocess]
  show (require (validateManifestPaths host manifest).valid _ >>= _) = _
  rw [hvalid]
  show renderProcessUnit manifest runtime = _
  rw [renderProcessUnit, hname, hbind, hwords, hbind, hdirectory, hbind, hvalues, hbind]
  show (validateRenderedUnit (unitText manifest runtime) >>= _) = _
  rw [haccepted]
  rfl

/-! ### Rendered manifests -/

theorem serve_nonempty : ["/srv/ollama/ollama", "serve"] ≠ [] := by decide

theorem serve_bounded : ["/srv/ollama/ollama", "serve"].length ≤ 128 := by decide

theorem serve_safe : ∀ argument ∈ ["/srv/ollama/ollama", "serve"],
    argument ≠ "" ∧ '\x00' ∉ argument.toList := by decide

theorem serve_absolute :
    (["/srv/ollama/ollama", "serve"].head serve_nonempty).toList.head? = some '/' := by decide

def ollamaRuntime : ProcessRuntime where
  workingDir := ollamaDir
  command := ["/srv/ollama/ollama", "serve"]
  command_nonempty := serve_nonempty
  command_bounded := serve_bounded
  safeArgumentVector := serve_safe
  absoluteExecutable := serve_absolute

def greeterRuntime : ProcessRuntime where
  workingDir := ollamaDir
  command := ["/srv/ollama/ollama", "say \"100% of $HOME\""]
  command_nonempty := by decide
  command_bounded := by decide
  safeArgumentVector := by decide
  absoluteExecutable := by decide

/-- A manifest for the same application whose values need every escape. -/
def greeter : ApplicationManifest :=
  { ollama with
    runtime := .process greeterRuntime
    environment := ⟨[("MODEL", "c:\\llama"), ("HOST", "a b")], by decide, by decide, by decide⟩ }

set_option maxRecDepth 8000 in
theorem renderUserUnit_ollama :
    renderUserUnit ollamaHost ollama = .ok (unitText ollama ollamaRuntime) :=
  renderUserUnit_eq rfl (by decide) (by decide) (by decide) (by decide) (by decide +kernel)

set_option maxRecDepth 8000 in
theorem renderUserUnit_greeter :
    renderUserUnit ollamaHost greeter = .ok (unitText greeter greeterRuntime) :=
  renderUserUnit_eq rfl (by decide) (by decide) (by decide) (by decide) (by decide +kernel)

end MachineDeck.Systemd

import MachineDeck.UnitDecode
import Mathlib.Data.List.Perm.Basic

/-!
# The self-check of rendered units

Rendering ends with a validation of its own text, line by line.  Validation ends a line at every
Unicode line boundary, also inside a quoted value, where rendering does not.

* `lineKind`, `WellOutlined` — what validation makes of a line, and the lines that it accepts;
* `wellOutlined_pieces` — a text whose lines fall into pieces is accepted when the further pieces
  are harmless;
* `HarmlessPiece`, `Tame` — such pieces, and values without others; `quiet_command` — the pieces of
  a quoted value are those of the value;
* `render_fails_as_stated_iff` — when rendering fails for its stated reasons only.
-/

namespace MachineDeck.Systemd

open LineText Traversals

/-! ### What validation makes of a line -/

inductive LineKind where
  | skipped
  | heading
  | directive (name : String)
  | refused
  deriving DecidableEq

def lineKind (line : String) : LineKind :=
  let cs := line.toList
  if cs.isEmpty || cs.head? == some '#' then .skipped
  else if cs.head? == some '[' && cs.getLast? == some ']' then .heading
  else if (partition line '=').2.isNone || !allowedDirectives.contains (partition line '=').1 then
    .refused
  else .directive (partition line '=').1

def headings (lines : List String) : List String :=
  lines.filter fun line => lineKind line = .heading

def directiveName (line : String) : Option String :=
  match lineKind line with
  | .directive name => some name
  | _ => none

def directiveNames (lines : List String) : List String := lines.filterMap directiveName

/-- The message that a refused line raises. -/
def refusal (line : String) : UnitError :=
  ⟨"Rendered unit contains an unsupported directive: " ++
    if (partition line '=').1.isEmpty then line else (partition line '=').1⟩

theorem addLine_kind (outline : UnitOutline) (line : String) :
    outline.addLine line = match lineKind line with
      | .skipped => .ok outline
      | .heading => .ok { outline with sections := outline.sections ++ [line] }
      | .directive name => .ok { outline with directives := outline.directives ++ [name] }
      | .refused => .error (refusal line) := by
  unfold UnitOutline.addLine lineKind refusal
  dsimp only
  by_cases hskipped : (line.toList.isEmpty || line.toList.head? == some '#') = true
  · rw [if_pos hskipped, if_pos hskipped]
  · rw [if_neg hskipped, if_neg hskipped]
    by_cases hheading : (line.toList.head? == some '[' && line.toList.getLast? == some ']') = true
    · rw [if_pos hheading, if_pos hheading]
    · rw [if_neg hheading, if_neg hheading]
      by_cases hrefused : ((partition line '=').2.isNone ||
          !allowedDirectives.contains (partition line '=').1) = true
      · rw [if_pos hrefused, if_pos hrefused]
      · rw [if_neg hrefused, if_neg hrefused]

theorem addLine_accepted {line : String} (h : lineKind line ≠ .refused) (outline : UnitOutline) :
    outline.addLine line = .ok
      { sections := outline.sections ++ headings [line]
        directives := outline.directives ++ directiveNames [line] } := by
  rw [addLine_kind]
  cases hkind : lineKind line with
  | skipped => simp [headings, directiveNames, directiveName, hkind]
  | heading => simp [headings, directiveNames, directiveName, hkind]
  | directive name => simp [headings, directiveNames, directiveName, hkind]
  | refused => exact absurd hkind h

/-- Lines are added until one is refused. -/
theorem addLines_accepted {lines : List String} (h : ∀ line ∈ lines, lineKind line ≠ .refused)
    (outline : UnitOutline) :
    lines.foldlM UnitOutline.addLine outline = .ok
      { sections := outline.sections ++ headings lines
        directives := outline.directives ++ directiveNames lines } := by
  induction lines generalizing outline with
  | nil => simp [headings, directiveNames, pure, Except.pure]
  | cons line lines ih =>
      rw [List.foldlM_cons, addLine_accepted (h line List.mem_cons_self)]
      show lines.foldlM UnitOutline.addLine _ = _
      rw [ih fun l hl => h l (List.mem_cons_of_mem line hl)]
      have hheadings : headings (line :: lines) = headings [line] ++ headings lines := by
        rw [headings, headings, headings, ← List.filter_append, List.singleton_append]
      have hnames : directiveNames (line :: lines) = directiveNames [line] ++ directiveNames lines := by
        rw [directiveNames, directiveNames, directiveNames, ← List.filterMap_append,
          List.singleton_append]
      rw [hheadings, hnames, List.append_assoc, List.append_assoc]

theorem addLines_refused {lines : List String} {line : String} (hline : line ∈ lines)
    (hrefused : lineKind line = .refused) (outline : UnitOutline) :
    ∃ e, lines.foldlM UnitOutline.addLine outline = .error e := by
  refine foldlM_error hline (fun outline => ⟨refusal line, ?_⟩) outline
  rw [addLine_kind, hrefused]

def requiredDirectives : List String := ["WorkingDirectory", "ExecStart", "KillMode"]

/-- The lines of an accepted unit. -/
structure WellOutlined (lines : List String) : Prop where
  accepted : ∀ line ∈ lines, lineKind line ≠ .refused
  headings : headings lines = ["[Unit]", "[Service]", "[Install]"]
  required : ∀ name ∈ requiredDirectives, (directiveNames lines).count name = 1

theorem require_bind {condition : Bool} {message : String} {α : Type}
    {k : Unit → Except UnitError α} :
    (require condition message >>= k) = if condition then k () else .error ⟨message⟩ := by
  cases condition with
  | true => rfl
  | false => rfl

theorem require_ok_iff {condition : Bool} {message : String} :
    require condition message = .ok () ↔ condition = true := by
  refine ⟨require_ok, ?_⟩
  rintro rfl
  rfl

theorem validateRenderedUnit_ok_iff (content : String)
    (hlast : content.toList.getLast? = some '\n') (hreturn : '\r' ∉ content.toList)
    (hnull : '\x00' ∉ content.toList) :
    validateRenderedUnit content = .ok () ↔
      content.toUTF8.size ≤ maxUnitBytes ∧ WellOutlined (splitlines content) := by
  have hcontrol : (content.toList.getLast? == some '\n' && !content.toList.contains '\r' &&
      !content.toList.contains '\x00') = true := by
    simp [hlast, hreturn, hnull]
  unfold validateRenderedUnit
  rw [require_bind, require_bind, if_pos hcontrol]
  by_cases hsize : content.toUTF8.size ≤ maxUnitBytes
  · rw [if_pos (by simpa using hsize)]
    by_cases haccepted : ∀ line ∈ splitlines content, lineKind line ≠ .refused
    · rw [addLines_accepted haccepted]
      show (require _ _ >>= _) = _ ↔ _
      rw [require_bind, List.nil_append, List.nil_append]
      by_cases hheadings : headings (splitlines content) = ["[Unit]", "[Service]", "[Install]"]
      · rw [if_pos (beq_iff_eq.mpr hheadings), forM_ok]
        constructor
        · intro h
          exact ⟨hsize, haccepted, hheadings, fun name hname =>
            beq_iff_eq.mp (require_ok_iff.mp (h name hname))⟩
        · intro h name hname
          exact require_ok_iff.mpr (beq_iff_eq.mpr (h.2.required name hname))
      · rw [if_neg (by simpa using hheadings)]
        exact iff_of_false (fun h => by cases h) fun h => hheadings h.2.headings
    · push Not at haccepted
      obtain ⟨line, hline, hrefused⟩ := haccepted
      obtain ⟨e, he⟩ := addLines_refused hline hrefused {}
      rw [he]
      exact iff_of_false (fun h => by cases h) fun h => h.2.accepted line hline hrefused
  · rw [if_neg (by simpa using hsize)]
    exact iff_of_false (by simp) fun h => hsize h.1

/-! ### Lines with further pieces -/

/-- A piece that validation accepts between the directives of a unit. -/
def LineKind.Harmless : LineKind → Prop
  | .skipped => True
  | .directive name => name ∉ requiredDirectives
  | _ => False

theorem LineKind.Harmless.accepted {line : String} (h : (lineKind line).Harmless) :
    lineKind line ≠ .refused := by
  intro hrefused
  rw [hrefused] at h
  exact h

theorem LineKind.Harmless.not_heading {line : String} (h : (lineKind line).Harmless) :
    lineKind line ≠ .heading := by
  intro hheading
  rw [hheading] at h
  exact h

theorem pieces_perm (lines : List String) :
    (lines.flatMap pieces).Perm (lines.map firstPiece ++ lines.flatMap furtherPieces) :=
  (List.map_append_flatMap_perm lines firstPiece furtherPieces).symm

theorem headings_pieces {lines : List String}
    (h : ∀ piece ∈ lines.flatMap furtherPieces, lineKind piece ≠ .heading) :
    headings (lines.flatMap pieces) = headings (lines.map firstPiece) := by
  unfold headings
  induction lines with
  | nil => rfl
  | cons line lines ih =>
      have hline : (furtherPieces line).filter (fun line => lineKind line = .heading) = [] := by
        rw [List.filter_eq_nil_iff]
        intro piece hpiece
        simpa using h piece (List.mem_append_left _ hpiece)
      have hrest := ih fun piece hpiece => h piece (List.mem_append_right _ hpiece)
      have hpieces : (line :: lines).flatMap pieces =
          [firstPiece line] ++ furtherPieces line ++ lines.flatMap pieces := rfl
      have hfirsts : (line :: lines).map firstPiece = [firstPiece line] ++ lines.map firstPiece := rfl
      rw [hpieces, hfirsts, List.filter_append, List.filter_append, List.filter_append, hline, hrest,
        List.append_nil]

/-- Lines whose first pieces are a unit are one if and only if their further pieces are harmless. -/
theorem wellOutlined_pieces {lines : List String} (hfirst : WellOutlined (lines.map firstPiece)) :
    WellOutlined (lines.flatMap pieces) ↔
      ∀ piece ∈ lines.flatMap furtherPieces, (lineKind piece).Harmless := by
  have hperm := pieces_perm lines
  have hnames : (directiveNames (lines.flatMap pieces)).Perm
      (directiveNames (lines.map firstPiece) ++ directiveNames (lines.flatMap furtherPieces)) := by
    have hmapped := hperm.filterMap directiveName
    rwa [List.filterMap_append] at hmapped
  have hcount (name : String) : (directiveNames (lines.flatMap pieces)).count name =
      (directiveNames (lines.map firstPiece)).count name +
        (directiveNames (lines.flatMap furtherPieces)).count name := by
    rw [hnames.count_eq, List.count_append]
  constructor
  · intro h piece hpiece
    have hmem : piece ∈ lines.flatMap pieces :=
      hperm.mem_iff.mpr (List.mem_append_right _ hpiece)
    have hheadings : (headings (lines.flatMap pieces)).Perm
        (headings (lines.map firstPiece) ++ headings (lines.flatMap furtherPieces)) := by
      have hfiltered := hperm.filter (fun line => lineKind line = .heading)
      rwa [List.filter_append] at hfiltered
    rw [h.headings, hfirst.headings] at hheadings
    have hnone : headings (lines.flatMap furtherPieces) = [] := by
      have hlength := hheadings.length_eq
      rw [List.length_append] at hlength
      exact List.length_eq_zero_iff.mp (by omega)
    cases hkind : lineKind piece with
    | skipped => trivial
    | refused => exact absurd hkind (h.accepted piece hmem)
    | heading =>
        have hin : piece ∈ headings (lines.flatMap furtherPieces) :=
          List.mem_filter.mpr ⟨hpiece, by simpa using hkind⟩
        rw [hnone] at hin
        cases hin
    | directive name =>
        intro hrequired
        have hone := hcount name
        rw [h.required name hrequired, hfirst.required name hrequired] at hone
        have hin : name ∈ directiveNames (lines.flatMap furtherPieces) :=
          List.mem_filterMap.mpr ⟨piece, hpiece, by rw [directiveName, hkind]⟩
        have hpositive := List.count_pos_iff.mpr hin
        omega
  · intro h
    refine ⟨?_, ?_, ?_⟩
    · intro line hline
      rcases List.mem_append.mp (hperm.mem_iff.mp hline) with hmem | hmem
      · exact hfirst.accepted line hmem
      · exact (h line hmem).accepted
    · rw [headings_pieces fun piece hpiece => (h piece hpiece).not_heading]
      exact hfirst.headings
    · intro name hrequired
      have hnone : name ∉ directiveNames (lines.flatMap furtherPieces) := by
        intro hin
        obtain ⟨piece, hpiece, hname⟩ := List.mem_filterMap.mp hin
        have hharmless := h piece hpiece
        unfold directiveName at hname
        cases hkind : lineKind piece with
        | directive name' =>
            rw [hkind] at hname hharmless
            cases hname
            exact hharmless hrequired
        | skipped => simp [hkind] at hname
        | heading => simp [hkind] at hname
        | refused => simp [hkind] at hname
      rw [hcount, hfirst.required name hrequired, List.count_eq_zero_of_not_mem hnone]

/-! ### The pieces of a rendered unit -/

theorem wellOutlined_unitLines {unitName workingDirectory execStart : String}
    {values lines : List String}
    (hlines : unitLines unitName workingDirectory execStart values = lines ++ [""]) :
    WellOutlined lines := by
  obtain ⟨lines', hlines', hfold⟩ :=
    unitLines_snoc unitName workingDirectory execStart values
  obtain rfl : lines = lines' := List.append_cancel_right (hlines.symm.trans hlines')
  have haccepted : ∀ line ∈ lines, lineKind line ≠ .refused := by
    intro line hline hrefused
    obtain ⟨e, he⟩ := addLines_refused hline hrefused {}
    rw [hfold] at he
    cases he
  rw [addLines_accepted haccepted] at hfold
  have houtline := Except.ok.inj hfold
  have hheadings := congrArg UnitOutline.sections houtline
  have hnames := congrArg UnitOutline.directives houtline
  refine ⟨haccepted, hheadings, fun name hname => ?_⟩
  have hnames : directiveNames lines = _ := hnames
  rw [hnames]
  have hother : name ≠ "Environment" := by
    rintro rfl
    revert hname
    decide
  rw [List.count_append, List.count_append, List.count_replicate,
    if_neg (by simpa using hother.symm)]
  revert name
  decide

/-- The lines around the values have no further piece. -/
theorem fixed_lines : ∀ line ∈ unitLines "" "" "" [""], ∀ c ∈ line.toList,
    lineBoundary c = false := by
  intro line hline c hc
  have hplain := plain_unitLines line hline c hc
  simp only [plainChar, Bool.and_eq_true, Bool.not_eq_true'] at hplain
  exact hplain.1

theorem fixed_pieces {lines : List String} (h : ∀ line ∈ lines, line ∈ unitLines "" "" "" [""]) :
    lines.map firstPiece = lines ∧ lines.flatMap furtherPieces = [] := by
  induction lines with
  | nil => exact ⟨rfl, rfl⟩
  | cons line lines ih =>
      obtain ⟨hfirsts, hfurther⟩ := ih fun l hl => h l (List.mem_cons_of_mem line hl)
      obtain ⟨hfirst, hnone⟩ :=
        List.cons.inj (pieces_plain (fixed_lines line (h line List.mem_cons_self)))
      rw [List.map_cons, List.flatMap_cons, hfirst, hfirsts, hnone, hfurther]
      exact ⟨rfl, rfl⟩

def headLines : List String :=
  ["# Generated by MachineDeck. Manual changes will be detected and replaced.", "[Unit]"]

def serviceLines : List String :=
  ["After=network-online.target", "Wants=network-online.target", "", "[Service]", "Type=simple"]

def tailLines : List String :=
  ["KillMode=control-group", "TimeoutStartSec=120", "TimeoutStopSec=30", "Restart=no",
   "NoNewPrivileges=true", "", "[Install]", "WantedBy=default.target", ""]

theorem unitLines_eq (unitName workingDirectory execStart : String) (values : List String) :
    unitLines unitName workingDirectory execStart values =
      headLines ++ ("Description=MachineDeck managed application " ++ unitName) ::
        (serviceLines ++ ("WorkingDirectory=" ++ workingDirectory) :: ("ExecStart=" ++ execStart) ::
          (values.map (fun value => "Environment=" ++ value) ++ tailLines)) := by
  simp [unitLines, headLines, serviceLines, tailLines]

/-- Only the values have further pieces, when the name and the path have no line boundary. -/
theorem pieces_unitLines {unitName workingDirectory : String} (execStart : String)
    (values : List String) (hname : ∀ c ∈ unitName.toList, lineBoundary c = false)
    (hdirectory : ∀ c ∈ workingDirectory.toList, lineBoundary c = false) :
    (unitLines unitName workingDirectory execStart values).map firstPiece =
        unitLines unitName workingDirectory (firstPiece execStart) (values.map firstPiece) ∧
      (unitLines unitName workingDirectory execStart values).flatMap furtherPieces =
        furtherPieces execStart ++ values.flatMap furtherPieces := by
  have hbehind {front : String} (hfront : front ∈ unitLines "" "" "" [""]) (text : String) :
      firstPiece (front ++ text) = front ++ firstPiece text ∧
        furtherPieces (front ++ text) = furtherPieces text :=
    ⟨firstPiece_append (fixed_lines front hfront) text,
      furtherPieces_append (fixed_lines front hfront) text⟩
  have hplain {text : String} (h : ∀ c ∈ text.toList, lineBoundary c = false) :
      firstPiece text = text ∧ furtherPieces text = [] := List.cons.inj (pieces_plain h)
  have hvalues : (values.map fun value => "Environment=" ++ value).map firstPiece =
      (values.map firstPiece).map (fun value => "Environment=" ++ value) := by
    rw [List.map_map, List.map_map]
    exact List.map_congr_left fun value _ => (hbehind (by decide) value).1
  have hfurther : (values.map fun value => "Environment=" ++ value).flatMap furtherPieces =
      values.flatMap furtherPieces := by
    rw [List.flatMap_map]
    exact List.flatMap_congr fun value _ => (hbehind (by decide) value).2
  have hhead := @fixed_pieces headLines (by decide)
  have hservice := @fixed_pieces serviceLines (by decide)
  have htail := @fixed_pieces tailLines (by decide)
  have hdescription := hbehind
    (by decide : "Description=MachineDeck managed application " ∈ unitLines "" "" "" [""]) unitName
  have hdir := hbehind (by decide : "WorkingDirectory=" ∈ unitLines "" "" "" [""]) workingDirectory
  have hexec := hbehind (by decide : "ExecStart=" ∈ unitLines "" "" "" [""]) execStart
  rw [(hplain hname).1, (hplain hname).2] at hdescription
  rw [(hplain hdirectory).1, (hplain hdirectory).2] at hdir
  constructor
  · rw [unitLines_eq, unitLines_eq, List.map_append, List.map_cons, List.map_append, List.map_cons,
      List.map_cons, List.map_append, hvalues, hhead.1, hservice.1, htail.1, hdescription.1, hdir.1,
      hexec.1]
  · rw [unitLines_eq, List.flatMap_append, List.flatMap_cons, List.flatMap_append,
      List.flatMap_cons, List.flatMap_cons, List.flatMap_append, hfurther, hhead.2, hservice.2,
      htail.2, hdescription.2, hdir.2, hexec.2]
    simp

/-! ### Starts of harmless pieces -/

def harmlessDirectives : List String :=
  allowedDirectives.filter fun name => !requiredDirectives.contains name

/-- What a harmless piece begins with. -/
def harmlessStarts : List (List Char) :=
  ['#'] :: harmlessDirectives.map fun name => name.toList ++ ['=']

/-- A piece is empty, a comment, or a directive that a unit may repeat. -/
def HarmlessPiece (piece : List Char) : Prop :=
  piece = [] ∨ ∃ start ∈ harmlessStarts, start <+: piece

theorem harmlessStart_cases {start : List Char} (h : start ∈ harmlessStarts) :
    start = ['#'] ∨ ∃ name ∈ harmlessDirectives, start = name.toList ++ ['='] := by
  rcases List.mem_cons.mp h with rfl | h
  · exact .inl rfl
  · obtain ⟨name, hname, rfl⟩ := List.mem_map.mp h
    exact .inr ⟨name, hname, rfl⟩

theorem harmlessDirective_first : ∀ name ∈ harmlessDirectives, '=' ∉ name.toList ∧
    name.toList.head?.any (fun c => c != '#' && c != '[') = true := by decide

/-- A piece that begins with a name and an equals sign has this name. -/
theorem name_of_start {name head tail : List Char} (hname : '=' ∉ name) (hhead : '=' ∉ head)
    (h : name ++ ['='] <+: head ++ '=' :: tail) : name = head := by
  obtain ⟨rest, hrest⟩ := h
  rw [List.append_assoc, List.singleton_append] at hrest
  have hcut := partitionChars_append name rest hname
  rw [hrest, partitionChars_append head tail hhead] at hcut
  exact (Prod.mk.inj hcut).1.symm

theorem lineKind_nil : lineKind (String.ofList []) = .skipped := by decide

theorem lineKind_comment (cs : List Char) : lineKind (String.ofList ('#' :: cs)) = .skipped := by
  simp [lineKind]

/-- A line with an equals sign that is neither a comment nor a heading. -/
theorem lineKind_assignment {c : Char} {cs head tail : List Char} (hcomment : c ≠ '#')
    (hheading : ¬(c = '[' ∧ (c :: cs).getLast? = some ']')) (hcut : c :: cs = head ++ '=' :: tail)
    (hhead : '=' ∉ head) :
    lineKind (String.ofList (c :: cs)) =
      if String.ofList head ∈ allowedDirectives then .directive (String.ofList head)
      else .refused := by
  have hpartition : partition (String.ofList (c :: cs)) '=' =
      (String.ofList head, some (String.ofList tail)) := by
    rw [partition, String.toList_ofList, hcut, partitionChars_append head tail hhead]
    rfl
  unfold lineKind
  dsimp only
  rw [hpartition, String.toList_ofList, if_neg (by simp [hcomment]), if_neg (by simpa using hheading)]
  by_cases hallowed : String.ofList head ∈ allowedDirectives
  · rw [if_pos hallowed, if_neg (by simpa using hallowed)]
  · rw [if_neg hallowed, if_pos (by simpa using hallowed)]

theorem lineKind_unassigned {c : Char} {cs : List Char} (hcomment : c ≠ '#')
    (hheading : ¬(c = '[' ∧ (c :: cs).getLast? = some ']')) (hequals : '=' ∉ c :: cs) :
    lineKind (String.ofList (c :: cs)) = .refused := by
  have hpartition : partition (String.ofList (c :: cs)) '=' = (String.ofList (c :: cs), none) := by
    rw [partition, String.toList_ofList, partitionChars_none hequals]
    rfl
  unfold lineKind
  dsimp only
  rw [hpartition, String.toList_ofList, if_neg (by simp [hcomment]), if_neg (by simpa using hheading),
    if_pos (by rfl)]

theorem lineKind_heading {c : Char} {cs : List Char} (hc : c = '[')
    (hlast : (c :: cs).getLast? = some ']') :
    lineKind (String.ofList (c :: cs)) = .heading := by
  subst hc
  unfold lineKind
  dsimp only
  rw [String.toList_ofList, if_neg (by simp), if_pos (by simpa using hlast)]

theorem harmless_iff (piece : List Char) :
    (lineKind (String.ofList piece)).Harmless ↔ HarmlessPiece piece := by
  cases piece with
  | nil =>
      rw [lineKind_nil]
      exact iff_of_true trivial (.inl rfl)
  | cons c cs =>
      by_cases hcomment : c = '#'
      · rw [hcomment, lineKind_comment]
        exact iff_of_true trivial (.inr ⟨['#'], List.mem_cons_self, cs, rfl⟩)
      have hstart : HarmlessPiece (c :: cs) ↔
          ∃ name ∈ harmlessDirectives, name.toList ++ ['='] <+: c :: cs := by
        constructor
        · rintro (h | ⟨start, hstart, hbegins⟩)
          · cases h
          · rcases harmlessStart_cases hstart with rfl | ⟨name, hname, rfl⟩
            · exact absurd (List.cons_prefix_cons.mp hbegins).1.symm hcomment
            · exact ⟨name, hname, hbegins⟩
        · rintro ⟨name, hname, hbegins⟩
          exact .inr ⟨_, List.mem_cons_of_mem _ (List.mem_map_of_mem hname), hbegins⟩
      rw [hstart]
      by_cases hheading : c = '[' ∧ (c :: cs).getLast? = some ']'
      · rw [lineKind_heading hheading.1 hheading.2]
        refine iff_of_false id ?_
        rintro ⟨name, hname, hbegins⟩
        have hfirst := (harmlessDirective_first name hname).2
        cases hchars : name.toList with
        | nil =>
            rw [hchars] at hfirst
            cases hfirst
        | cons d ds =>
            rw [hchars, List.cons_append, List.cons_prefix_cons] at hbegins
            rw [hchars, hbegins.1, hheading.1] at hfirst
            simp at hfirst
      · by_cases hequals : '=' ∈ c :: cs
        · obtain ⟨head, tail, hcut, hhead⟩ := List.eq_append_cons_of_mem hequals
          rw [lineKind_assignment hcomment hheading hcut hhead, hcut]
          have hname (name : String) (hname : name ∈ harmlessDirectives) :
              name.toList ++ ['='] <+: head ++ '=' :: tail ↔ String.ofList head = name := by
            constructor
            · intro hbegins
              rw [← name_of_start (harmlessDirective_first name hname).1 hhead hbegins,
                String.ofList_toList]
            · rintro rfl
              rw [String.toList_ofList]
              exact ⟨tail, by rw [List.append_assoc, List.singleton_append]⟩
          constructor
          · intro h
            by_cases hallowed : String.ofList head ∈ allowedDirectives
            · rw [if_pos hallowed] at h
              have hharmless : String.ofList head ∈ harmlessDirectives :=
                List.mem_filter.mpr ⟨hallowed, by simpa [LineKind.Harmless] using h⟩
              exact ⟨_, hharmless, (hname _ hharmless).mpr rfl⟩
            · rw [if_neg hallowed] at h
              exact h.elim
          · rintro ⟨name, hmem, hbegins⟩
            rw [(hname name hmem).mp hbegins]
            obtain ⟨hallowed, hrequired⟩ := List.mem_filter.mp hmem
            rw [if_pos hallowed]
            simpa [LineKind.Harmless] using hrequired
        · rw [lineKind_unassigned hcomment hheading hequals]
          refine iff_of_false id ?_
          rintro ⟨name, hname, hbegins⟩
          exact hequals (hbegins.subset (List.mem_append_right _ (List.mem_singleton_self _)))

/-! ### Pieces of values -/

/-- The pieces of a value that follow a line boundary, up to its closing quote, are harmless. -/
def Tame (value : List Char) : Prop :=
  ∀ piece ∈ (segments (value ++ ['"'])).2, HarmlessPiece piece

/-- The pieces of a text that follow a line boundary are harmless. -/
def Quiet (text : List Char) : Prop := ∀ piece ∈ (segments text).2, HarmlessPiece piece

theorem Quiet.behind {front : List Char} (hfront : ∀ c ∈ front, lineBoundary c = false)
    (text : List Char) : Quiet (front ++ text) ↔ Quiet text := by
  rw [Quiet, Quiet, segments_append hfront]

theorem boundary_unescaped (escapeDollar : Bool) {c : Char} (hc : lineBoundary c = true) :
    (wordCode escapeDollar).encode c = [c] := by
  have hboundaries : ∀ escapeDollar, ∀ c ∈ lineBoundaries,
      (wordCode escapeDollar).encode c = [c] := by decide
  exact hboundaries escapeDollar c (List.contains_iff_mem.mp hc)

theorem encode_inner (escapeDollar : Bool) {c : Char} (hc : lineBoundary c = false) :
    ∀ d ∈ (wordCode escapeDollar).encode c, lineBoundary d = false := by
  intro d hd
  rw [wordCode_encode] at hd
  rcases List.mem_append.mp hd with hd | hd
  · rcases lead_cases (Option.mem_toList.mp hd) with rfl | rfl | ⟨-, rfl⟩ <;> decide
  · rw [List.mem_singleton.mp hd]
    exact hc

/-- A start is not escaped, and has no quote. -/
theorem start_unescaped : ∀ escapeDollar, ∀ start ∈ harmlessStarts, ∀ c ∈ start,
    lead escapeDollar c = none := by decide

/-- What an unescaped word begins with. -/
theorem start_encode_iff {escapeDollar : Bool} {start : List Char}
    (hstart : ∀ c ∈ start, lead escapeDollar c = none) {value behind behind' : List Char}
    (hbehind : behind = [] ∧ behind' = [] ∨
      behind.head? = some '"' ∧ behind'.head? = some '"') :
    start <+: (wordCode escapeDollar).encodeAll value ++ behind ↔ start <+: value ++ behind' := by
  have hquote : (lead escapeDollar '"').isSome = true := by simp [lead]
  induction start generalizing value with
  | nil => exact iff_of_true (List.nil_prefix) (List.nil_prefix)
  | cons c start ih =>
      have hc := hstart c List.mem_cons_self
      have hnot {text : List Char} (htext : text = [] ∨ text.head? = some '"') :
          ¬c :: start <+: text := by
        intro hbegins
        cases text with
        | nil => cases List.prefix_nil.mp hbegins
        | cons d text =>
            rcases htext with htext | htext
            · cases htext
            · rw [(List.cons_prefix_cons.mp hbegins).1, Option.some.inj htext] at hc
              rw [hc] at hquote
              cases hquote
      cases value with
      | nil =>
          refine iff_of_false (hnot ?_) (hnot ?_)
          · exact hbehind.imp And.left And.left
          · exact hbehind.imp And.right And.right
      | cons d value =>
          rw [PrefixCode.encodeAll_cons, wordCode_encode, List.append_assoc, List.append_assoc,
            List.cons_append]
          cases hlead : lead escapeDollar d with
          | none =>
              show c :: start <+: d :: ((wordCode escapeDollar).encodeAll value ++ behind) ↔ _
              rw [List.cons_append, List.cons_prefix_cons, List.cons_prefix_cons]
              exact and_congr_right fun _ =>
                ih fun e he => hstart e (List.mem_cons_of_mem c he)
          | some l =>
              refine iff_of_false (fun h => ?_) (fun h => ?_)
              · have hl := (List.cons_prefix_cons.mp h).1
                have hsome := lead_isSome hlead
                rw [← hl, hc] at hsome
                cases hsome
              · rw [← (List.cons_prefix_cons.mp h).1, hc] at hlead
                cases hlead

/-- The first piece of an escaped value is the escaped first piece of the value. -/
theorem first_encode (escapeDollar : Bool) (value behind : List Char) :
    ∃ first rest rest', (segments ((wordCode escapeDollar).encodeAll value ++ '"' :: behind)).1 =
        (wordCode escapeDollar).encodeAll first ++ rest ∧
      (segments (value ++ ['"'])).1 = first ++ rest' ∧
      (rest = [] ∧ rest' = [] ∨ rest.head? = some '"' ∧ rest'.head? = some '"') := by
  have hquote : lineBoundary '"' = false := by decide
  induction value with
  | nil =>
      refine ⟨[], '"' :: (segments behind).1, ['"'], ?_, ?_, .inr ⟨rfl, rfl⟩⟩
      · rw [PrefixCode.encodeAll_nil, List.nil_append, segments_inner hquote]
        rfl
      · rw [List.nil_append, segments_inner hquote]
        rfl
  | cons c value ih =>
      rw [PrefixCode.encodeAll_cons, List.append_assoc]
      cases hc : lineBoundary c with
      | true =>
          refine ⟨[], [], [], ?_, ?_, .inl ⟨rfl, rfl⟩⟩
          · rw [boundary_unescaped escapeDollar hc, List.singleton_append, segments_boundary hc]
            rfl
          · rw [List.cons_append, segments_boundary hc]
            rfl
      | false =>
          obtain ⟨first, rest, rest', hfirst, hfirst', hrest⟩ := ih
          refine ⟨c :: first, rest, rest', ?_, ?_, hrest⟩
          · rw [segments_append (encode_inner escapeDollar hc), hfirst, PrefixCode.encodeAll_cons,
              List.append_assoc]
          · rw [List.cons_append, segments_inner hc, hfirst', List.cons_append]

theorem harmless_encode_iff (escapeDollar : Bool) (value behind : List Char) :
    HarmlessPiece (segments ((wordCode escapeDollar).encodeAll value ++ '"' :: behind)).1 ↔
      HarmlessPiece (segments (value ++ ['"'])).1 := by
  obtain ⟨first, rest, rest', hfirst, hfirst', hrest⟩ := first_encode escapeDollar value behind
  rw [hfirst, hfirst']
  have hnil : (wordCode escapeDollar).encodeAll first ++ rest = [] ↔ first ++ rest' = [] := by
    cases first with
    | nil =>
        rcases hrest with ⟨rfl, rfl⟩ | ⟨hquote, hquote'⟩
        · exact Iff.rfl
        · refine iff_of_false (fun h => ?_) (fun h => ?_)
          · rw [show rest = [] from h] at hquote
            cases hquote
          · rw [show rest' = [] from h] at hquote'
            cases hquote'
    | cons c first =>
        refine iff_of_false (fun h => ?_) (fun h => ?_)
        · rw [PrefixCode.encodeAll_cons] at h
          have hword := (List.append_eq_nil_iff.mp (List.append_eq_nil_iff.mp h).1).1
          exact (wordCode escapeDollar).encode_ne_nil c hword
        · cases h
  refine or_congr hnil (exists_congr fun start => and_congr_right fun hstart => ?_)
  exact start_encode_iff (start_unescaped escapeDollar start hstart) hrest

/-- The pieces of an escaped value, and of what follows its closing quote. -/
theorem quiet_encode (escapeDollar : Bool) (value behind : List Char) :
    Quiet ((wordCode escapeDollar).encodeAll value ++ '"' :: behind) ↔ Tame value ∧ Quiet behind := by
  have hquote : lineBoundary '"' = false := by decide
  induction value with
  | nil =>
      have htame : Tame [] := by
        intro piece hpiece
        rw [List.nil_append, segments_inner hquote] at hpiece
        cases hpiece
      rw [PrefixCode.encodeAll_nil, List.nil_append, Quiet, segments_inner hquote]
      exact (and_iff_right htame).symm
  | cons c value ih =>
      rw [PrefixCode.encodeAll_cons, List.append_assoc]
      cases hc : lineBoundary c with
      | true =>
          have hfirst := harmless_encode_iff escapeDollar value behind
          rw [boundary_unescaped escapeDollar hc, List.singleton_append, Quiet, Tame,
            List.cons_append, segments_boundary hc, segments_boundary hc, List.forall_mem_cons,
            List.forall_mem_cons, hfirst, and_assoc]
          exact and_congr_right fun _ => ih
      | false =>
          have htame : Tame (c :: value) ↔ Tame value := by
            rw [Tame, Tame, List.cons_append, segments_inner hc]
          rw [htame]
          exact (Quiet.behind (encode_inner escapeDollar hc) _).trans ih

theorem Tame.behind {front : List Char} (hfront : ∀ c ∈ front, lineBoundary c = false)
    (value : List Char) : Tame (front ++ value) ↔ Tame value := by
  rw [Tame, Tame, List.append_assoc, segments_append hfront]

theorem toList_quoted (escapeDollar : Bool) (value : String) :
    (quoted escapeDollar value).toList =
      ['"'] ++ ((wordCode escapeDollar).encodeAll value.toList ++ ['"']) := by
  simp [quoted, toList_escaped]

theorem quiet_quoted (escapeDollar : Bool) (value : String) (behind : List Char) :
    Quiet ((quoted escapeDollar value).toList ++ behind) ↔ Tame value.toList ∧ Quiet behind := by
  have hquote : ∀ c ∈ ['"'], lineBoundary c = false := by decide
  rw [toList_quoted, List.append_assoc, List.append_assoc, Quiet.behind hquote]
  exact quiet_encode escapeDollar value.toList behind

theorem quiet_nil : Quiet [] := by
  intro piece hpiece
  cases hpiece

/-- The pieces of a command line are those of its words. -/
theorem quiet_command (words : List String) :
    Quiet (" ".intercalate (words.map (quoted true))).toList ↔ ∀ word ∈ words, Tame word.toList := by
  have hspace : ∀ c ∈ [' '], lineBoundary c = false := by decide
  rw [String.toList_intercalate]
  induction words with
  | nil => exact iff_of_true quiet_nil fun word hword => by cases hword
  | cons word words ih =>
      rw [List.forall_mem_cons]
      cases words with
      | nil =>
          have hword := quiet_quoted true word []
          rw [List.append_nil] at hword
          rw [List.map_singleton, List.map_singleton, List.intercalate_singleton, hword]
          refine and_congr_right fun _ => iff_of_true quiet_nil ?_
          intro word hword
          cases hword
      | cons word' words =>
          rw [List.map_cons, List.map_cons, List.intercalate_cons_of_ne_nil (by simp),
            List.append_assoc, quiet_quoted]
          exact and_congr_right fun _ => (Quiet.behind hspace _).trans ih

theorem furtherPieces_harmless (text : String) :
    (∀ piece ∈ furtherPieces text, (lineKind piece).Harmless) ↔ Quiet text.toList := by
  rw [furtherPieces, List.forall_mem_map]
  exact forall₂_congr fun piece _ => harmless_iff piece

/-- The pieces of an environment value are those of the value of the variable. -/
theorem quiet_environment {item : String × String} (hname : environmentName item.1 = true) :
    Quiet (quoted false (item.1 ++ "=" ++ item.2)).toList ↔ Tame item.2.toList := by
  have hequals : Plain "=" := by decide
  have hfront : ∀ c ∈ (item.1 ++ "=").toList, lineBoundary c = false := by
    intro c hc
    have hplain := (plain_environmentName hname).append hequals c hc
    simp only [plainChar, Bool.and_eq_true, Bool.not_eq_true'] at hplain
    exact hplain.1
  have hquoted := quiet_quoted false (item.1 ++ "=" ++ item.2) []
  rw [List.append_nil, String.toList_append, Tame.behind hfront] at hquoted
  exact hquoted.trans (and_iff_left quiet_nil)

/-! ### When rendering raises -/

/-- The characters that rendering refuses in values. -/
def ControlFree (text : String) : Prop := text.toList.all environmentChar = true

theorem quote_allowed {escapeDollar : Bool} {value : String} (h : ControlFree value) :
    quote escapeDollar value = .ok (quoted escapeDollar value) := by
  rw [quote, rejectControlCharacters, h]
  rfl

theorem environmentText_allowed {item : String × String} (hname : environmentName item.1 = true)
    (hvalue : ControlFree item.2) : ControlFree (item.1 ++ "=" ++ item.2) := by
  have hallowed : ControlFree item.1 := (plain_environmentName hname).allowed
  rw [ControlFree] at hallowed hvalue ⊢
  rw [String.toList_append, String.toList_append, List.all_append, List.all_append, hallowed, hvalue]
  rfl

/-- Where no value is refused, the text is put together and validated. -/
theorem renderUserUnit_validated {host : HostPaths} {manifest : ApplicationManifest}
    {runtime : ProcessRuntime} (hprocess : manifest.runtime = .process runtime)
    (hvalid : (validateManifestPaths host manifest).valid = true)
    (hcommand : ∀ argument ∈ runtime.command, ControlFree argument)
    (hdirectory : ControlFree runtime.workingDir.text) :
    renderUserUnit host manifest =
      validateRenderedUnit (unitText manifest runtime) >>= fun _ =>
        pure (unitText manifest runtime) := by
  have hname := unitNameFor_eq manifest.validApplicationId
  have hwords : runtime.command.mapM (quote true) = .ok (runtime.command.map (quoted true)) :=
    mapM_eq fun argument hargument => quote_allowed (hcommand argument hargument)
  have hpath : escapePath runtime.workingDir.text = .ok (escapedPath runtime.workingDir.text) := by
    rw [escapePath, rejectControlCharacters, hdirectory]
    rfl
  have hvalues : (sortedItems manifest.environment).mapM environmentValue =
      .ok ((sortedItems manifest.environment).map fun item =>
        quoted false (item.1 ++ "=" ++ item.2)) := by
    apply mapM_eq
    intro item hitem
    have hmem := (sortedItems_perm manifest.environment).mem_iff.mp hitem
    have hvalue : ControlFree item.2 := manifest.environment.safeValues item hmem
    rw [environmentValue, rejectControlCharacters, hvalue]
    exact quote_allowed
      (environmentText_allowed (manifest.environment.validNames item hmem) hvalue)
  have hbind : ∀ {α β : Type} (a : α) (k : α → Except UnitError β),
      (Except.ok a >>= k) = k a := fun _ _ => rfl
  unfold renderUserUnit
  rw [hprocess]
  show (require (validateManifestPaths host manifest).valid _ >>= _) = _
  rw [hvalid]
  show renderProcessUnit manifest runtime = _
  rw [renderProcessUnit, hname, hbind, hwords, hbind, hpath, hbind, hvalues, hbind]
  rfl

/-- The values of a manifest are tame. -/
structure TameValues (manifest : ApplicationManifest) (runtime : ProcessRuntime) : Prop where
  command : ∀ argument ∈ runtime.command, Tame argument.toList
  environment : ∀ entry ∈ manifest.environment.entries, Tame entry.2.toList

section
variable {manifest : ApplicationManifest} {runtime : ProcessRuntime}

theorem refused_not_mem_quoted {escapeDollar : Bool} {value : String} (h : ControlFree value)
    {c : Char} (hc : c = '\r' ∨ c = '\x00') : c ∉ (quoted escapeDollar value).toList := by
  have hword : (quoted escapeDollar value).toList =
      (quotedWord escapeDollar).encode value.toList := by
    simp [quoted, toList_escaped, quotedWord, PrefixCode.delimited]
  intro hmem
  rw [hword] at hmem
  rcases mem_quotedWord hmem with hmem | hmem
  · have hallowed := List.all_eq_true.mp h c hmem
    rcases hc with rfl | rfl <;> revert hallowed <;> decide
  · rcases hc with rfl | rfl <;> revert hmem <;> decide

/-- Neither a carriage return nor a NUL is in a line of the text. -/
theorem unitLines_free (hcommand : ∀ argument ∈ runtime.command, ControlFree argument)
    {line : String} (hline : line ∈ unitLines ("machinedeck-" ++ manifest.id ++ ".service")
      (escapedPath runtime.workingDir.text) (" ".intercalate (runtime.command.map (quoted true)))
      ((sortedItems manifest.environment).map fun item => quoted false (item.1 ++ "=" ++ item.2)))
    {c : Char} (hc : c = '\r' ∨ c = '\x00') : c ∉ line.toList := by
  have hplain : plainChar c = false := by
    rcases hc with rfl | rfl <;> decide
  have hspace : c ∉ " ".toList := by
    rcases hc with rfl | rfl <;> decide
  have hnot {text : String} (htext : Plain text) : c ∉ text.toList := by
    intro hmem
    rw [htext c hmem] at hplain
    cases hplain
  intro hmem
  rcases char_unitLines hline hmem with h | h | h | h | ⟨value, hvalue, h⟩
  · rw [h] at hplain
    cases hplain
  · exact hnot (plain_unitName manifest.validApplicationId) h
  · exact hnot (plain_escapedPath _) h
  · rcases mem_intercalate h with h | ⟨word, hword, h⟩
    · exact hspace h
    · obtain ⟨argument, hargument, rfl⟩ := List.mem_map.mp hword
      exact refused_not_mem_quoted (hcommand argument hargument) hc h
  · obtain ⟨item, hitem, rfl⟩ := List.mem_map.mp hvalue
    have hentry := (sortedItems_perm manifest.environment).mem_iff.mp hitem
    have htext : ControlFree (item.1 ++ "=" ++ item.2) :=
      environmentText_allowed (manifest.environment.validNames item hentry)
        (manifest.environment.safeValues item hentry)
    exact refused_not_mem_quoted htext hc h

theorem validateRenderedUnit_unitText_iff
    (hcommand : ∀ argument ∈ runtime.command, ControlFree argument) :
    validateRenderedUnit (unitText manifest runtime) = .ok () ↔
      (unitText manifest runtime).toUTF8.size ≤ maxUnitBytes ∧ TameValues manifest runtime := by
  let unitName := "machinedeck-" ++ manifest.id ++ ".service"
  let execStart := " ".intercalate (runtime.command.map (quoted true))
  let values := (sortedItems manifest.environment).map fun item =>
    quoted false (item.1 ++ "=" ++ item.2)
  have hinner {text : String} (h : Plain text) : ∀ c ∈ text.toList, lineBoundary c = false := by
    intro c hc
    have hchar := h c hc
    simp only [plainChar, Bool.and_eq_true, Bool.not_eq_true'] at hchar
    exact hchar.1
  obtain ⟨lines, hlines, -⟩ :=
    unitLines_snoc unitName (escapedPath runtime.workingDir.text) execStart values
  have hfree (line : String) (hline : line ∈ lines ++ [""]) {c : Char}
      (hc : c = '\r' ∨ c = '\x00') : c ∉ line.toList := by
    rw [← hlines] at hline
    exact unitLines_free hcommand hline hc
  have htext : unitText manifest runtime = "\n".intercalate (lines ++ [""]) := by
    rw [← hlines]
    rfl
  have hne : lines ≠ [] := by
    rintro rfl
    exact absurd (congrArg List.length hlines) (by simp [unitLines])
  have habsent {c : Char} (hc : c = '\r' ∨ c = '\x00') :
      c ∉ ("\n".intercalate (lines ++ [""])).toList := by
    intro hmem
    rcases mem_intercalate hmem with hmem | ⟨line, hline, hmem⟩
    · rcases hc with rfl | rfl <;> revert hmem <;> decide
    · exact hfree line hline hc hmem
  have hsplit : splitlines ("\n".intercalate (lines ++ [""])) = lines.flatMap pieces :=
    splitlines_pieces fun line hline => hfree line (List.mem_append_left _ hline) (.inl rfl)
  obtain ⟨hfirsts, hfurther⟩ := pieces_unitLines execStart values
    (hinner (plain_unitName manifest.validApplicationId))
    (hinner (plain_escapedPath runtime.workingDir.text))
  rw [hlines, List.map_append] at hfirsts
  rw [hlines, List.flatMap_append] at hfurther
  have hwell : WellOutlined (lines.map firstPiece) := wellOutlined_unitLines hfirsts.symm
  have hnone : [""].flatMap furtherPieces = [] := rfl
  rw [hnone, List.append_nil] at hfurther
  rw [htext, validateRenderedUnit_ok_iff _ (getLast_intercalate hne) (habsent (.inl rfl))
    (habsent (.inr rfl)), hsplit, wellOutlined_pieces hwell, hfurther, List.forall_mem_append]
  refine and_congr_right fun _ => ?_
  have hexec : (∀ piece ∈ furtherPieces execStart, (lineKind piece).Harmless) ↔
      ∀ argument ∈ runtime.command, Tame argument.toList :=
    (furtherPieces_harmless execStart).trans (quiet_command runtime.command)
  have hvalues : (∀ piece ∈ values.flatMap furtherPieces, (lineKind piece).Harmless) ↔
      ∀ entry ∈ manifest.environment.entries, Tame entry.2.toList := by
    have hitem (item : String × String) (hname : environmentName item.1 = true) :=
      (furtherPieces_harmless (quoted false (item.1 ++ "=" ++ item.2))).trans
        (quiet_environment hname)
    constructor
    · intro h entry hentry
      refine (hitem entry (manifest.environment.validNames entry hentry)).mp fun piece hpiece => ?_
      have hsorted := (sortedItems_perm manifest.environment).mem_iff.mpr hentry
      exact h piece (List.mem_flatMap.mpr ⟨_, List.mem_map_of_mem hsorted, hpiece⟩)
    · intro h piece hpiece
      obtain ⟨value, hvalue, hpiece⟩ := List.mem_flatMap.mp hpiece
      obtain ⟨item, hmem, rfl⟩ := List.mem_map.mp hvalue
      have hentry := (sortedItems_perm manifest.environment).mem_iff.mp hmem
      exact (hitem item (manifest.environment.validNames item hentry)).mpr (h item hentry) piece hpiece
  rw [hexec, hvalues]
  exact ⟨fun h => ⟨h.1, h.2⟩, fun h => ⟨h.command, h.environment⟩⟩

end

/-- The reasons that are stated for a failure. -/
def StatedReason (manifest : ApplicationManifest) (runtime : ProcessRuntime) : Prop :=
  (∃ argument ∈ runtime.command, ∃ c ∈ argument.toList, c = '\n' ∨ c = '\r' ∨ c = '\x00') ∨
  (∃ c ∈ runtime.workingDir.text.toList, c = '\n' ∨ c = '\r' ∨ c = '\x00') ∨
  maxUnitBytes < (unitText manifest runtime).toUTF8.size

theorem not_controlFree_iff (text : String) :
    ¬ControlFree text ↔ ∃ c ∈ text.toList, c = '\n' ∨ c = '\r' ∨ c = '\x00' := by
  have hchar (c : Char) : ¬environmentChar c = true ↔ c = '\n' ∨ c = '\r' ∨ c = '\x00' := by
    by_cases hnewline : c = '\n' <;> by_cases hreturn : c = '\r' <;> by_cases hnull : c = '\x00' <;>
      simp [environmentChar, hnewline, hreturn, hnull]
  rw [ControlFree, List.all_eq_true]
  push Not
  exact exists_congr fun c => and_congr_right fun _ => (not_congr Iff.rfl).trans (hchar c)

section
variable {host : HostPaths} {manifest : ApplicationManifest} {runtime : ProcessRuntime}

/-- A unit that is rendered refused none of its values. -/
theorem controlFree_of_rendered (hprocess : manifest.runtime = .process runtime) {text : String}
    (h : renderUserUnit host manifest = .ok text) :
    (∀ argument ∈ runtime.command, ControlFree argument) ∧ ControlFree runtime.workingDir.text := by
  obtain ⟨runtime', workingDirectory, words, values, hrendered⟩ := renderUserUnit_ok h
  obtain rfl : runtime = runtime' := Runtime.process.inj (hprocess.symm.trans hrendered.process)
  refine ⟨fun argument hargument => ?_, ?_⟩
  · obtain ⟨word, hword⟩ := isOk_of_mapM hrendered.command hargument
    exact (quote_ok hword).1
  · obtain ⟨_, hcheck, -⟩ := bind_ok hrendered.directory
    exact require_ok hcheck

/-- Rendering raises for a stated reason or for a value that is not tame. -/
theorem renderUserUnit_raises_iff (hprocess : manifest.runtime = .process runtime)
    (hvalid : (validateManifestPaths host manifest).valid = true) :
    (∃ e, renderUserUnit host manifest = .error e) ↔
      StatedReason manifest runtime ∨ ¬TameValues manifest runtime := by
  by_cases hcommand : ∀ argument ∈ runtime.command, ControlFree argument
  · by_cases hdirectory : ControlFree runtime.workingDir.text
    · have hstated : StatedReason manifest runtime ↔
          ¬(unitText manifest runtime).toUTF8.size ≤ maxUnitBytes := by
        constructor
        · rintro (⟨argument, hargument, hc⟩ | hc | hsize)
          · exact absurd (hcommand argument hargument) ((not_controlFree_iff _).mpr hc)
          · exact absurd hdirectory ((not_controlFree_iff _).mpr hc)
          · exact Nat.not_le.mpr hsize
        · exact fun hsize => .inr (.inr (Nat.not_le.mp hsize))
      rw [renderUserUnit_validated hprocess hvalid hcommand hdirectory, hstated, ← not_and_or,
        ← validateRenderedUnit_unitText_iff hcommand]
      cases hresult : validateRenderedUnit (unitText manifest runtime) with
      | error e => exact iff_of_true ⟨e, rfl⟩ fun h => by cases h
      | ok u => exact iff_of_false (fun ⟨e, he⟩ => by cases he) fun h => h rfl
    · refine iff_of_true ?_ (.inl (.inr (.inl ((not_controlFree_iff _).mp hdirectory))))
      cases hresult : renderUserUnit host manifest with
      | error e => exact ⟨e, rfl⟩
      | ok text => exact absurd (controlFree_of_rendered hprocess hresult).2 hdirectory
  · have hstated : StatedReason manifest runtime := by
      push Not at hcommand
      obtain ⟨argument, hargument, hcontrol⟩ := hcommand
      exact .inl ⟨argument, hargument, (not_controlFree_iff _).mp hcontrol⟩
    refine iff_of_true ?_ (.inl hstated)
    cases hresult : renderUserUnit host manifest with
    | error e => exact ⟨e, rfl⟩
    | ok text => exact absurd (controlFree_of_rendered hprocess hresult).1 hcommand

end

/-- **When rendering fails for its stated reasons only.**  A process manifest that passes the checks
of its paths is refused exactly for the stated reasons, if and only if there is such a reason or
its values are tame. -/
theorem render_fails_as_stated_iff (host : HostPaths) (manifest : ApplicationManifest)
    (runtime : ProcessRuntime) (hprocess : manifest.runtime = .process runtime)
    (hvalid : (validateManifestPaths host manifest).valid = true) :
    ((∃ e, renderUserUnit host manifest = .error e) ↔ StatedReason manifest runtime) ↔
      StatedReason manifest runtime ∨ TameValues manifest runtime := by
  rw [renderUserUnit_raises_iff hprocess hvalid]
  constructor
  · intro h
    by_cases htame : TameValues manifest runtime
    · exact .inr htame
    · exact .inl (h.mp (.inr htame))
  · rintro (hstated | htame)
    · exact iff_of_true (.inl hstated) hstated
    · exact ⟨fun h => h.resolve_right (not_not_intro htame), .inl⟩

set_option maxRecDepth 8000 in
theorem render_fails_as_stated_iff_greeter :
    ((∃ e, renderUserUnit ollamaHost greeter = .error e) ↔ StatedReason greeter greeterRuntime) ↔
      StatedReason greeter greeterRuntime ∨ TameValues greeter greeterRuntime :=
  render_fails_as_stated_iff ollamaHost greeter greeterRuntime rfl (by decide)

/-! ### A line separator in an argument -/

instance (piece : List Char) : Decidable (HarmlessPiece piece) :=
  inferInstanceAs (Decidable (_ ∨ _))

instance (value : List Char) : Decidable (Tame value) :=
  inferInstanceAs (Decidable (∀ piece ∈ _, HarmlessPiece piece))

def separatedRuntime : ProcessRuntime where
  workingDir := ollamaDir
  command := ["/srv/ollama/ollama", "a\u2028b"]
  command_nonempty := by decide
  command_bounded := by decide
  safeArgumentVector := by decide
  absoluteExecutable := by decide

/-- `ollama` with a line separator in an argument. -/
def separated : ApplicationManifest := { ollama with runtime := .process separatedRuntime }

set_option maxRecDepth 8000 in
theorem separated_unstated : ¬StatedReason separated separatedRuntime := by
  rintro (⟨argument, hargument, hc⟩ | hc | hsize)
  · revert argument
    decide
  · revert hc
    decide
  · exact absurd hsize (by decide +kernel)

set_option maxRecDepth 8000 in
/-- A line separator in an argument is refused, though nothing is stated about it. -/
theorem separator_refused : ¬ ∀ (host : HostPaths) (manifest : ApplicationManifest)
    (runtime : ProcessRuntime), manifest.runtime = .process runtime →
      (validateManifestPaths host manifest).valid = true →
        ((∃ e, renderUserUnit host manifest = .error e) ↔ StatedReason manifest runtime) := by
  intro h
  have huntamed : ¬TameValues separated separatedRuntime := fun htame =>
    absurd (htame.command "a\u2028b" (by decide)) (by decide)
  have hraises := (@renderUserUnit_raises_iff ollamaHost separated separatedRuntime rfl
    (by decide)).mpr (.inr huntamed)
  exact separated_unstated ((h ollamaHost separated separatedRuntime rfl (by decide)).mp hraises)

end MachineDeck.Systemd

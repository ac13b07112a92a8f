import Mathlib.Data.List.DropRight
import Mathlib.Data.List.Basic

/-!
# Texts of lines

Operations on texts that a program uses to write and to read lines, for any separator.

* `replaceChar` — every occurrence of a character replaced by a text; replacements in a row are
  one substitution of characters (`toList_replaceChar`);
* `splitAt` — the pieces between the occurrences of a character, the inverse of joining
  (`splitAt_intercalate`);
* `partition` — the text before the first occurrence of a character and the text after it;
* `splitlines` — the lines of a text at every Unicode line boundary; `pieces`, `splitlines_pieces` —
  lines that are ended by newlines are read as their pieces between the other boundaries;
  `filter_splitlines` — the lines that are not empty are the pieces that are not;
* `stripBy`, `isSpace` — the text without the blanks at its ends.
-/

namespace LineText

/-! ### The characters of a text -/

/-- A property of the characters of a text is decided along the text, not over all characters. -/
scoped instance (priority := 2000) decidableForallMem (p : Char → Prop) [DecidablePred p]
    (text : List Char) : Decidable (∀ c ∈ text, p c) := List.decidableBAll p text

scoped instance (priority := 2000) decidableExistsMem (p : Char → Prop) [DecidablePred p]
    (text : List Char) : Decidable (∃ c ∈ text, p c) := List.decidableBEx p text

/-! ### Replacing characters -/

/-- `s.replace(old, new)` for a single character `old`. -/
def replaceChar (s : String) (old : Char) (new : String) : String :=
  String.ofList (s.toList.flatMap fun c => if c = old then new.toList else [c])

@[simp] theorem toList_replaceChar (s : String) (old : Char) (new : String) :
    (replaceChar s old new).toList =
      s.toList.flatMap fun c => if c = old then new.toList else [c] := by
  rw [replaceChar, String.toList_ofList]

/-! ### Splitting and joining -/

/-- `s.split(separator)` for a single character. -/
def splitAt (s : String) (separator : Char) : List String :=
  (s.toList.splitOn separator).map String.ofList

/-- Splitting undoes joining, when no piece has the separator. -/
theorem splitAt_intercalate {separator : Char} {pieces : List String}
    (hpieces : ∀ piece ∈ pieces, separator ∉ piece.toList) (hne : pieces ≠ []) :
    splitAt ((String.singleton separator).intercalate pieces) separator = pieces := by
  have hsplit : ([separator].intercalate (pieces.map String.toList)).splitOn separator =
      pieces.map String.toList := by
    apply List.splitOn_intercalate
    · intro piece hpiece
      obtain ⟨text, htext, rfl⟩ := List.mem_map.mp hpiece
      exact hpieces text htext
    · intro hnil
      exact hne (List.map_eq_nil_iff.mp hnil)
  rw [splitAt, String.toList_intercalate, String.toList_singleton, hsplit, List.map_map]
  have hid : String.ofList ∘ String.toList = id := funext fun s => String.ofList_toList
  rw [hid, List.map_id]

/-- An element of a joined list is one of the separator or one of a piece. -/
theorem mem_intercalate_list {α : Type*} {a : α} {separator : List α} {pieces : List (List α)}
    (h : a ∈ separator.intercalate pieces) : a ∈ separator ∨ ∃ piece ∈ pieces, a ∈ piece := by
  induction pieces with
  | nil => cases h
  | cons piece pieces ih =>
      cases pieces with
      | nil =>
          rw [List.intercalate_singleton] at h
          exact .inr ⟨piece, List.mem_cons_self, h⟩
      | cons next pieces =>
          rw [List.intercalate_cons_cons] at h
          rcases List.mem_append.mp h with h | h
          · rcases List.mem_append.mp h with h | h
            · exact .inr ⟨piece, List.mem_cons_self, h⟩
            · exact .inl h
          · rcases ih h with h | ⟨found, hfound, h⟩
            · exact .inl h
            · exact .inr ⟨found, List.mem_cons_of_mem _ hfound, h⟩

/-- What is in a piece is in the joined list. -/
theorem mem_intercalate_of_mem {α : Type*} {a : α} {separator : List α} {pieces : List (List α)}
    {piece : List α} (hpiece : piece ∈ pieces) (ha : a ∈ piece) :
    a ∈ separator.intercalate pieces := by
  induction pieces with
  | nil => cases hpiece
  | cons first pieces ih =>
      cases pieces with
      | nil =>
          rw [List.mem_singleton.mp hpiece] at ha
          rwa [List.intercalate_singleton]
      | cons next pieces =>
          rw [List.intercalate_cons_cons, List.append_assoc]
          rcases List.mem_cons.mp hpiece with rfl | hpiece
          · exact List.mem_append_left _ ha
          · exact List.mem_append_right _ (List.mem_append_right _ (ih hpiece))

/-- A character of a joined text is one of the separator or one of a piece. -/
theorem mem_intercalate {c : Char} {separator : String} {pieces : List String}
    (h : c ∈ (separator.intercalate pieces).toList) :
    c ∈ separator.toList ∨ ∃ piece ∈ pieces, c ∈ piece.toList := by
  rw [String.toList_intercalate] at h
  rcases mem_intercalate_list h with h | ⟨chars, hchars, h⟩
  · exact .inl h
  · obtain ⟨piece, hpiece, rfl⟩ := List.mem_map.mp hchars
    exact .inr ⟨piece, hpiece, h⟩

/-! ### Partitioning -/

/-- `s.partition(separator)`: the tail is none when there is no separator. -/
def partitionChars (separator : Char) : List Char → List Char × Option (List Char)
  | [] => ([], none)
  | c :: cs =>
    if c = separator then ([], some cs)
    else
      let (head, tail) := partitionChars separator cs
      (c :: head, tail)

def partition (s : String) (separator : Char) : String × Option String :=
  let (head, tail) := partitionChars separator s.toList
  (String.ofList head, tail.map String.ofList)

theorem partitionChars_append {separator : Char} (head tail : List Char)
    (hhead : separator ∉ head) :
    partitionChars separator (head ++ separator :: tail) = (head, some tail) := by
  induction head with
  | nil => simp [partitionChars]
  | cons c cs ih =>
      obtain ⟨hc, hcs⟩ := List.ne_and_not_mem_of_not_mem_cons hhead
      rw [List.cons_append, partitionChars, if_neg hc.symm, ih hcs]

theorem partitionChars_none {separator : Char} {text : List Char} (h : separator ∉ text) :
    partitionChars separator text = (text, none) := by
  induction text with
  | nil => rfl
  | cons c cs ih =>
      obtain ⟨hc, hcs⟩ := List.ne_and_not_mem_of_not_mem_cons h
      rw [partitionChars, if_neg hc.symm, ih hcs]

/-- What is partitioned is put together again. -/
theorem partitionChars_split (separator : Char) (text : List Char) :
    (separator ∉ (partitionChars separator text).1) ∧
      text = (partitionChars separator text).1 ++
        ((partitionChars separator text).2.elim [] fun tail => separator :: tail) := by
  induction text with
  | nil => exact ⟨List.not_mem_nil, rfl⟩
  | cons c cs ih =>
      rw [partitionChars]
      split_ifs with hc
      · exact ⟨List.not_mem_nil, by rw [hc]; rfl⟩
      · simp only
        refine ⟨?_, by rw [List.cons_append, ← ih.2]⟩
        rw [List.mem_cons]
        exact fun h => h.elim (fun heq => hc heq.symm) ih.1

/-- A text joined from a head without the separator and a tail is partitioned into them. -/
theorem partition_append {separator : Char} {head tail : String}
    (hhead : separator ∉ head.toList) :
    partition (head ++ String.singleton separator ++ tail) separator = (head, some tail) := by
  have hchars : (head ++ String.singleton separator ++ tail).toList =
      head.toList ++ separator :: tail.toList := by
    simp
  rw [partition, hchars, partitionChars_append _ _ hhead]
  simp

/-! ### Line boundaries -/

/-- The characters at which `str.splitlines` ends a line. -/
def lineBoundaries : List Char :=
  ['\n', '\r', '\x0b', '\x0c', '\x1c', '\x1d', '\x1e', '\u0085', '\u2028', '\u2029']

def lineBoundary (c : Char) : Bool := lineBoundaries.contains c

/-- The lines of the characters that are left, the first of which begins with `line`. -/
def splitlinesFrom (line : List Char) : List Char → List (List Char)
  | [] => if line.isEmpty then [] else [line]
  | '\r' :: '\n' :: cs => line :: splitlinesFrom [] cs
  | c :: cs => if lineBoundary c then line :: splitlinesFrom [] cs else splitlinesFrom (line ++ [c]) cs

/-- `s.splitlines()`. -/
def splitlines (s : String) : List String :=
  (splitlinesFrom [] s.toList).map String.ofList

/-- No line has a boundary in it. -/
theorem splitlinesFrom_plain {line text : List Char} (hline : ∀ c ∈ line, lineBoundary c = false) :
    ∀ piece ∈ splitlinesFrom line text, ∀ c ∈ piece, lineBoundary c = false := by
  have hnone : ∀ c ∈ ([] : List Char), lineBoundary c = false := by simp
  induction line, text using splitlinesFrom.induct with
  | case1 line hempty => simp [splitlinesFrom, hempty]
  | case2 line hempty =>
      rw [splitlinesFrom, if_neg hempty]
      simpa using hline
  | case3 line cs ih =>
      rw [splitlinesFrom, List.forall_mem_cons]
      exact ⟨hline, ih hnone⟩
  | case4 line c cs hreturn hc ih =>
      rw [splitlinesFrom, if_pos hc, List.forall_mem_cons]
      · exact ⟨hline, ih hnone⟩
      · exact hreturn
  | case5 line c cs hreturn hc ih =>
      rw [splitlinesFrom, if_neg hc]
      · refine ih fun d hd => ?_
        rcases List.mem_append.mp hd with hd | hd
        · exact hline d hd
        · rw [List.mem_singleton.mp hd]
          simpa using hc
      · exact hreturn

theorem splitlines_plain {s line : String} (h : line ∈ splitlines s) :
    ∀ c ∈ line.toList, lineBoundary c = false := by
  obtain ⟨piece, hpiece, rfl⟩ := List.mem_map.mp h
  rw [String.toList_ofList]
  exact splitlinesFrom_plain (by simp) piece hpiece

/-- The text before the first line boundary, and the texts behind the boundaries. -/
def segments : List Char → List Char × List (List Char)
  | [] => ([], [])
  | c :: cs =>
    if lineBoundary c then ([], (segments cs).1 :: (segments cs).2)
    else (c :: (segments cs).1, (segments cs).2)

theorem segments_boundary {c : Char} (hc : lineBoundary c = true) (cs : List Char) :
    segments (c :: cs) = ([], (segments cs).1 :: (segments cs).2) := by
  rw [segments, if_pos hc]

theorem segments_inner {c : Char} (hc : lineBoundary c = false) (cs : List Char) :
    segments (c :: cs) = (c :: (segments cs).1, (segments cs).2) := by
  rw [segments, if_neg (by simp [hc])]

/-- Characters that end no line stay in front. -/
theorem segments_append {front : List Char} (hfront : ∀ c ∈ front, lineBoundary c = false)
    (text : List Char) :
    segments (front ++ text) = (front ++ (segments text).1, (segments text).2) := by
  induction front with
  | nil => rfl
  | cons c cs ih =>
      rw [List.cons_append, segments_inner (hfront c List.mem_cons_self),
        ih fun d hd => hfront d (List.mem_cons_of_mem c hd)]
      rfl

theorem segments_plain {text : List Char} (h : ∀ c ∈ text, lineBoundary c = false) :
    segments text = (text, []) := by
  have hsegments := segments_append h []
  rwa [List.append_nil, segments, List.append_nil] at hsegments

/-- A text with a boundary is cut at the first one. -/
theorem segments_broken {text : List Char} (h : ∃ c ∈ text, lineBoundary c = true) :
    ∃ b rest, lineBoundary b = true ∧ text = (segments text).1 ++ b :: rest := by
  induction text with
  | nil =>
      obtain ⟨c, hc, -⟩ := h
      cases hc
  | cons c cs ih =>
      cases hc : lineBoundary c with
      | true =>
          rw [segments_boundary hc]
          exact ⟨c, cs, hc, rfl⟩
      | false =>
          obtain ⟨d, hd, hbreak⟩ := h
          have hcs : d ∈ cs := (List.mem_cons.mp hd).resolve_left fun heq => by
            rw [heq, hc] at hbreak
            cases hbreak
          obtain ⟨b, rest, hb, heq⟩ := ih ⟨d, hcs, hbreak⟩
          rw [segments_inner hc]
          exact ⟨b, rest, hb, congrArg (c :: ·) heq⟩

/-- A line that ends with a newline is read as its segments. -/
theorem splitlinesFrom_segments (line piece rest : List Char) (hpiece : '\r' ∉ piece) :
    splitlinesFrom line (piece ++ '\n' :: rest) =
      (line ++ (segments piece).1) :: ((segments piece).2 ++ splitlinesFrom [] rest) := by
  induction piece generalizing line with
  | nil =>
      have hnewline : lineBoundary '\n' = true := by decide
      rw [List.nil_append, segments, List.append_nil, List.nil_append]
      simp [splitlinesFrom, hnewline]
  | cons c cs ih =>
      obtain ⟨hreturn, hcs⟩ := List.ne_and_not_mem_of_not_mem_cons hpiece
      rw [List.cons_append, splitlinesFrom]
      · cases hc : lineBoundary c with
        | true =>
            rw [if_pos rfl, ih [] hcs, segments_boundary hc, List.append_nil]
            rfl
        | false =>
            rw [if_neg Bool.false_ne_true, ih _ hcs, segments_inner hc, List.append_assoc]
            rfl
      · intro _ h _
        exact hreturn h.symm

/-- The segments of a line, as texts. -/
def firstPiece (line : String) : String := String.ofList (segments line.toList).1

def furtherPieces (line : String) : List String := (segments line.toList).2.map String.ofList

def pieces (line : String) : List String := firstPiece line :: furtherPieces line

/-- What stands in front of a text without line boundaries stands in front of its first piece. -/
theorem firstPiece_append {front : String} (hfront : ∀ c ∈ front.toList, lineBoundary c = false)
    (text : String) : firstPiece (front ++ text) = front ++ firstPiece text := by
  rw [firstPiece, String.toList_append, segments_append hfront, String.ofList_append,
    String.ofList_toList]
  rfl

theorem furtherPieces_append {front : String}
    (hfront : ∀ c ∈ front.toList, lineBoundary c = false) (text : String) :
    furtherPieces (front ++ text) = furtherPieces text := by
  rw [furtherPieces, String.toList_append, segments_append hfront]
  rfl

theorem firstPiece_begins (text : String) : ∃ rest, text = firstPiece text ++ rest := by
  by_cases hbroken : ∃ c ∈ text.toList, lineBoundary c = true
  · obtain ⟨b, rest, -, htext⟩ := segments_broken hbroken
    refine ⟨String.ofList (b :: rest), String.toList_injective ?_⟩
    rw [String.toList_append, firstPiece, String.toList_ofList, String.toList_ofList, ← htext]
  · have hplain : ∀ c ∈ text.toList, lineBoundary c = false := by simpa using hbroken
    refine ⟨"", ?_⟩
    rw [firstPiece, segments_plain hplain, String.ofList_toList, String.append_empty]

theorem firstPiece_ne_empty {text : String} {c : Char} (hhead : text.toList.head? = some c)
    (hc : lineBoundary c = false) : firstPiece text ≠ "" := by
  intro hempty
  have hnil := congrArg String.toList hempty
  rw [firstPiece, String.toList_ofList, ← List.cons_head?_tail hhead, segments_inner hc] at hnil
  cases hnil

theorem pieces_plain {line : String} (h : ∀ c ∈ line.toList, lineBoundary c = false) :
    pieces line = [line] := by
  rw [pieces, firstPiece, furtherPieces, segments_plain h, String.ofList_toList]
  rfl

/-- Lines that are ended by newlines are read as their pieces. -/
theorem splitlines_pieces {lines : List String} (hlines : ∀ line ∈ lines, '\r' ∉ line.toList) :
    splitlines ("\n".intercalate (lines ++ [""])) = lines.flatMap pieces := by
  have hchars : ∀ ls : List (List Char), (∀ l ∈ ls, '\r' ∉ l) →
      splitlinesFrom [] (['\n'].intercalate (ls ++ [[]])) =
        ls.flatMap fun l => (segments l).1 :: (segments l).2 := by
    intro ls hls
    induction ls with
    | nil => rfl
    | cons l ls ih =>
        have htext : ['\n'].intercalate (l :: ls ++ [[]]) =
            l ++ '\n' :: ['\n'].intercalate (ls ++ [[]]) := by
          rw [List.cons_append, List.intercalate_cons_of_ne_nil (by simp)]
          simp
        rw [htext, splitlinesFrom_segments _ _ _ (hls l List.mem_cons_self),
          ih fun l' hl' => hls l' (List.mem_cons_of_mem l hl'), List.nil_append]
        rfl
  have htext : ("\n".intercalate (lines ++ [""])).toList =
      ['\n'].intercalate (lines.map String.toList ++ [[]]) := by
    rw [String.toList_intercalate, List.map_append]
    rfl
  have hsplit := hchars (lines.map String.toList) fun l hl => by
    obtain ⟨line, hline, rfl⟩ := List.mem_map.mp hl
    exact hlines line hline
  rw [splitlines, htext, hsplit, List.flatMap_map, List.map_flatMap]
  rfl

/-- Lines that are ended by newlines, and have no other boundary, are the lines of their text. -/
theorem splitlines_intercalate {lines : List String}
    (hlines : ∀ line ∈ lines, ∀ c ∈ line.toList, lineBoundary c = false) :
    splitlines ("\n".intercalate (lines ++ [""])) = lines := by
  have hreturn : ∀ line ∈ lines, '\r' ∉ line.toList := by
    intro line hline hmem
    exact absurd (hlines line hline '\r' hmem) (by decide)
  rw [splitlines_pieces hreturn]
  induction lines with
  | nil => rfl
  | cons line lines ih =>
      rw [List.flatMap_cons, pieces_plain (hlines line List.mem_cons_self),
        ih (fun l hl => hlines l (List.mem_cons_of_mem line hl))
          (fun l hl => hreturn l (List.mem_cons_of_mem line hl))]
      rfl

/-- Lines that are ended by newlines end with one. -/
theorem getLast_intercalate {lines : List String} (hne : lines ≠ []) :
    ("\n".intercalate (lines ++ [""])).toList.getLast? = some '\n' := by
  have hsnoc : "\n".intercalate (lines ++ [""]) = "\n".intercalate lines ++ "\n" := by
    rw [String.intercalate_append_of_ne_nil hne (List.cons_ne_nil _ _),
      String.intercalate_singleton, String.append_empty]
  rw [hsnoc, String.toList_append]
  exact List.getLast?_concat

theorem segments_cut {b : Char} (hb : lineBoundary b = true) (front rest : List Char) :
    segments (front ++ b :: rest) =
      ((segments front).1, (segments front).2 ++ (segments rest).1 :: (segments rest).2) := by
  induction front with
  | nil => rw [List.nil_append, segments_boundary hb]; rfl
  | cons c cs ih =>
      rw [List.cons_append]
      cases hc : lineBoundary c with
      | true => rw [segments_boundary hc, segments_boundary hc, ih]; rfl
      | false => rw [segments_inner hc, segments_inner hc, ih]

/-- Between the two characters of `\r\n` nothing stands. -/
theorem filter_splitlinesFrom (line text : List Char) :
    (splitlinesFrom line text).filter (fun l => !l.isEmpty) =
      ((line ++ (segments text).1) :: (segments text).2).filter fun l => !l.isEmpty := by
  have hreturn : lineBoundary '\r' = true := by decide
  have hnewline : lineBoundary '\n' = true := by decide
  fun_induction splitlinesFrom line text with
  | case1 line hline =>
      simp only [List.isEmpty_iff] at hline
      simp [segments, hline]
  | case2 line hline => simp [segments]
  | case3 line cs ih =>
      rw [segments_boundary hreturn, segments_boundary hnewline, List.append_nil,
        List.filter_cons, List.filter_cons, ih]
      simp
  | case4 line c cs _ hc ih =>
      rw [segments_boundary hc, List.append_nil, List.filter_cons, List.filter_cons, ih]
      rfl
  | case5 line c cs _ hc ih =>
      rw [segments_inner (by simpa using hc), ih, List.append_assoc]
      rfl

/-- The lines that are not empty. -/
theorem filter_splitlines (s : String) :
    (splitlines s).filter (· ≠ "") = (pieces s).filter (· ≠ "") := by
  have hempty : (fun s => decide (s ≠ "")) ∘ String.ofList = fun l => !l.isEmpty := by
    funext l
    cases l <;> simp
  simp only [splitlines, pieces, firstPiece, furtherPieces, ← List.map_cons, List.filter_map,
    hempty]
  exact congrArg _ (filter_splitlinesFrom [] s.toList)

theorem pieces_cut (front rest : String) :
    pieces (front ++ "\n" ++ rest) = pieces front ++ pieces rest := by
  have hnewline : lineBoundary '\n' = true := by decide
  have htext : (front ++ "\n" ++ rest).toList = front.toList ++ '\n' :: rest.toList := by simp
  simp only [pieces, firstPiece, furtherPieces, htext, segments_cut hnewline, List.map_append,
    List.map_cons, List.cons_append]

/-- A character that ends no line stands in a piece. -/
theorem mem_pieces {s : String} {c : Char} (hc : lineBoundary c = false) (hmem : c ∈ s.toList) :
    ∃ piece ∈ pieces s, c ∈ piece.toList := by
  have hchars (text : List Char) (hmem : c ∈ text) :
      ∃ segment ∈ (segments text).1 :: (segments text).2, c ∈ segment := by
    induction text with
    | nil => cases hmem
    | cons d ds ih =>
        cases hd : lineBoundary d with
        | true =>
            have hds : c ∈ ds := (List.mem_cons.mp hmem).resolve_left fun h => by
              rw [h, hd] at hc
              cases hc
            obtain ⟨segment, hsegment, hin⟩ := ih hds
            rw [segments_boundary hd]
            exact ⟨segment, List.mem_cons_of_mem _ hsegment, hin⟩
        | false =>
            rw [segments_inner hd]
            rcases List.mem_cons.mp hmem with rfl | hds
            · exact ⟨_, List.mem_cons_self, List.mem_cons_self⟩
            · obtain ⟨segment, hsegment, hin⟩ := ih hds
              rcases List.mem_cons.mp hsegment with rfl | hrest
              · exact ⟨_, List.mem_cons_self, List.mem_cons_of_mem _ hin⟩
              · exact ⟨segment, List.mem_cons_of_mem _ hrest, hin⟩
  obtain ⟨segment, hsegment, hin⟩ := hchars s.toList hmem
  refine ⟨String.ofList segment, ?_, by rwa [String.toList_ofList]⟩
  rw [pieces, firstPiece, furtherPieces, ← List.map_cons]
  exact List.mem_map_of_mem hsegment

example : splitlines "a\r\nb\n\nc\n" = ["a", "b", "", "c"] := by decide

/-! ### Stripping -/

/-- The characters `str.isspace` is true of. -/
def isSpace (c : Char) : Bool :=
  let n := c.toNat
  (9 ≤ n && n ≤ 13) || (28 ≤ n && n ≤ 32) || n == 0x85 || n == 0xa0 || n == 0x1680 ||
    (0x2000 ≤ n && n ≤ 0x200a) || n == 0x2028 || n == 0x2029 || n == 0x202f || n == 0x205f ||
    n == 0x3000

/-- A text without the given characters at its ends. -/
def stripBy (blank : Char → Bool) (text : List Char) : List Char :=
  ((text.dropWhile blank).reverse.dropWhile blank).reverse

def strip (text : List Char) : List Char := stripBy isSpace text

theorem stripBy_eq (blank : Char → Bool) (text : List Char) :
    stripBy blank text = (text.dropWhile blank).rdropWhile blank := rfl

theorem mem_dropWhile {blank : Char → Bool} {c : Char} (hc : blank c = false)
    {text : List Char} : c ∈ text.dropWhile blank ↔ c ∈ text := by
  constructor
  · exact fun h => (List.dropWhile_sublist blank).subset h
  · intro h
    rw [← List.takeWhile_append_dropWhile (p := blank) (l := text)] at h
    rcases List.mem_append.mp h with h | h
    · have hblank := List.mem_takeWhile_imp h
      rw [hc] at hblank
      cases hblank
    · exact h

/-- Only blanks are taken from the ends. -/
theorem mem_rdropWhile {blank : Char → Bool} {c : Char} (hc : blank c = false)
    {text : List Char} : c ∈ text.rdropWhile blank ↔ c ∈ text := by
  rw [List.rdropWhile, List.mem_reverse, mem_dropWhile hc, List.mem_reverse]

theorem mem_stripBy {blank : Char → Bool} {c : Char} (hc : blank c = false) {text : List Char} :
    c ∈ stripBy blank text ↔ c ∈ text := by
  rw [stripBy_eq, mem_rdropWhile hc, mem_dropWhile hc]

theorem dropWhile_stripBy (blank : Char → Bool) (text : List Char) :
    (stripBy blank text).dropWhile blank = stripBy blank text := by
  cases hstrip : stripBy blank text with
  | nil => rfl
  | cons c more =>
    -- the first character is also the first one behind the leading blanks
    obtain ⟨rest, hrest⟩ := List.rdropWhile_prefix blank (text.dropWhile blank)
    have hhead := List.head?_dropWhile_not blank text
    rw [← hrest, ← stripBy_eq, hstrip] at hhead
    have hc : blank c = false := hhead
    exact List.dropWhile_cons_of_neg (by simp [hc])

/-- A text with no blank at its ends stays as it is. -/
theorem stripBy_stripBy (blank : Char → Bool) (text : List Char) :
    stripBy blank (stripBy blank text) = stripBy blank text := by
  rw [stripBy_eq blank (stripBy blank text), dropWhile_stripBy, stripBy_eq,
    List.rdropWhile_idempotent]

theorem stripBy_of_plain {blank : Char → Bool} {text : List Char}
    (h : ∀ c ∈ text, blank c = false) : stripBy blank text = text := by
  have hfront : ∀ text : List Char, (∀ c ∈ text, blank c = false) →
      text.dropWhile blank = text := by
    intro text h
    cases text with
    | nil => rfl
    | cons c text => exact List.dropWhile_cons_of_neg (by simp [h c List.mem_cons_self])
  rw [stripBy, hfront text h, hfront text.reverse fun c hc => h c (List.mem_reverse.mp hc),
    List.reverse_reverse]

theorem toLower_space {c : Char} (h : isSpace c = true) : c.toLower = c := by
  delta Char.toLower
  rw [dif_neg]
  rintro ⟨hge, hle⟩
  have hfirst : 65 ≤ c.toNat := UInt32.le_iff_toNat_le.mp hge
  have hlast : c.toNat ≤ 90 := UInt32.le_iff_toNat_le.mp hle
  have hletters : ∀ n ≤ 90, 65 ≤ n → isSpace (Char.ofNat n) = false := by decide
  rw [← Char.ofNat_toNat c, hletters c.toNat hlast hfirst] at h
  cases h

theorem rdropWhile_append (blank : Char → Bool) (text more : List Char) :
    (text ++ more).rdropWhile blank =
      if more.rdropWhile blank = [] then text.rdropWhile blank
      else text ++ more.rdropWhile blank := by
  simp only [List.rdropWhile, List.reverse_append, List.dropWhile_append, List.isEmpty_iff,
    List.reverse_eq_nil_iff]
  split_ifs <;> simp

/-- Behind a text that is not blank, only the end of what follows is stripped. -/
theorem stripBy_append {blank : Char → Bool} {text : List Char}
    (htext : text.dropWhile blank ≠ []) (more : List Char) :
    stripBy blank (text ++ more) =
      if more.rdropWhile blank = [] then stripBy blank text
      else text.dropWhile blank ++ more.rdropWhile blank := by
  rw [stripBy_eq, stripBy_eq, List.dropWhile_append, if_neg (by simpa using htext),
    rdropWhile_append]

theorem stripBy_blank_append {blank : Char → Bool} {text : List Char}
    (htext : text.dropWhile blank = []) (more : List Char) :
    stripBy blank (text ++ more) = stripBy blank more := by
  rw [stripBy_eq, stripBy_eq, List.dropWhile_append, if_pos (by simpa using htext)]

/-- Blanks at the end make no difference. -/
theorem stripBy_append_blanks {blank : Char → Bool} {blanks : List Char}
    (h : ∀ c ∈ blanks, blank c = true) (text : List Char) :
    stripBy blank (text ++ blanks) = stripBy blank text := by
  have hblanks : blanks.rdropWhile blank = [] := List.rdropWhile_eq_nil_iff.mpr h
  by_cases htext : text.dropWhile blank = []
  · have hnone : blanks.dropWhile blank = [] := List.dropWhile_eq_nil_iff.mpr h
    rw [stripBy_blank_append htext, stripBy_eq, stripBy_eq, htext, hnone]
  · rw [stripBy_append htext, if_pos hblanks]

end LineText

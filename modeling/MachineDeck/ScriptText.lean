import Mathlib.Data.Bool.AllAny
import MachineDeck.LineText

/-!
# Texts in a script

What JavaScript makes of the text of a field: `trim`, and splitting it into lines or at commas.

* `isWhite`, `trim` — white space as `String.prototype.trim` takes it away;
* `feedLines`, `splitLines`, `splitLines_join` — the lines of a text and of joined lines;
* `splitCommas`, `splitCommas_join` — the same with commas.
-/

namespace ScriptText

open LineText (stripBy)

/-- White space and the ends of lines. -/
def isWhite (c : Char) : Bool :=
  let n := c.toNat
  (9 ≤ n && n ≤ 13) || n == 0x20 || n == 0xa0 || n == 0x1680 || (0x2000 ≤ n && n ≤ 0x200a) ||
    n == 0x2028 || n == 0x2029 || n == 0x202f || n == 0x205f || n == 0x3000 || n == 0xfeff

def trim (text : List Char) : List Char := stripBy isWhite text

/-- `text.split(/\r?\n/)`, where `line` has been read. -/
def feedLines (line : List Char) : List Char → List (List Char)
  | [] => [line]
  | '\r' :: '\n' :: cs => line :: feedLines [] cs
  | '\n' :: cs => line :: feedLines [] cs
  | c :: cs => feedLines (line ++ [c]) cs

/-- The texts that are not empty, each of them trimmed. -/
def trimmed (pieces : List (List Char)) : List (List Char) :=
  (pieces.map trim).filter fun piece => piece ≠ []

def splitLines (value : List Char) : List (List Char) := trimmed (feedLines [] value)

/-- `text.split(",")`, and each piece trimmed. -/
def splitCommas (value : List Char) : List (List Char) := trimmed (value.splitOn ',')

/-! ### Pieces -/

theorem trim_trim (text : List Char) : trim (trim text) = trim text :=
  LineText.stripBy_stripBy isWhite text

theorem trimmed_of_plain {pieces : List (List Char)}
    (h : ∀ piece ∈ pieces, trim piece = piece ∧ piece ≠ []) : trimmed pieces = pieces := by
  have hmap : pieces.map trim = pieces := by
    rw [List.map_congr_left (g := fun piece => piece) fun piece hpiece => (h piece hpiece).1,
      List.map_id']
  rw [trimmed, hmap, List.filter_eq_self]
  intro piece hpiece
  exact decide_eq_true (h piece hpiece).2

theorem mem_trimmed {pieces : List (List Char)} {piece : List Char} (h : piece ∈ trimmed pieces) :
    trim piece = piece ∧ piece ≠ [] ∧ ∃ whole ∈ pieces, piece = trim whole := by
  obtain ⟨hmem, hne⟩ := List.mem_filter.mp h
  obtain ⟨whole, hwhole, rfl⟩ := List.mem_map.mp hmem
  exact ⟨trim_trim whole, of_decide_eq_true hne, whole, hwhole, rfl⟩

/-! ### Lines -/

theorem feedLines_feedless {line text : List Char} (hline : '\n' ∉ line) :
    ∀ piece ∈ feedLines line text, '\n' ∉ piece := by
  induction line, text using feedLines.induct with
  | case1 line => simpa [feedLines] using hline
  | case2 line cs ih =>
      rw [feedLines, List.forall_mem_cons]
      exact ⟨hline, ih (by simp)⟩
  | case3 line cs ih =>
      rw [feedLines, List.forall_mem_cons]
      exact ⟨hline, ih (by simp)⟩
  | case4 line c cs hreturn hfeed ih =>
      rw [feedLines]
      · refine ih fun hmem => ?_
        rcases List.mem_append.mp hmem with hmem | hmem
        · exact hline hmem
        · exact hfeed (List.mem_singleton.mp hmem).symm
      · exact hreturn
      · exact hfeed

theorem mem_splitLines {value line : List Char} (h : line ∈ splitLines value) :
    trim line = line ∧ line ≠ [] ∧ '\n' ∉ line := by
  obtain ⟨htrim, hne, whole, hwhole, rfl⟩ := mem_trimmed h
  refine ⟨htrim, hne, fun hmem => ?_⟩
  have hnone : '\n' ∉ ([] : List Char) := by simp
  have hplain := feedLines_feedless hnone whole hwhole
  exact hplain (((List.dropWhile_sublist isWhite).subset (List.mem_reverse.mp
    ((List.dropWhile_sublist isWhite).subset (List.mem_reverse.mp hmem)))))

theorem feedLines_last {line text : List Char} (h : '\n' ∉ text) :
    feedLines line text = [line ++ text] := by
  induction text generalizing line with
  | nil => rw [feedLines, List.append_nil]
  | cons c text ih =>
      obtain ⟨hc, htext⟩ := List.ne_and_not_mem_of_not_mem_cons h
      rw [feedLines, ih htext, List.append_assoc, List.singleton_append]
      · rintro cs - rfl
        exact htext List.mem_cons_self
      · exact fun heq => hc heq.symm

/-- A line that ends with a feed is read up to it, with or without a carriage return there. -/
theorem feedLines_append (line : List Char) {front : List Char} (h : '\n' ∉ front)
    (rest : List Char) :
    ∃ piece, feedLines line (front ++ '\n' :: rest) = piece :: feedLines [] rest ∧
      trim piece = trim (line ++ front) := by
  induction front generalizing line with
  | nil => exact ⟨line, by rw [List.nil_append, feedLines], by rw [List.append_nil]⟩
  | cons c front ih =>
      obtain ⟨hc, hfront⟩ := List.ne_and_not_mem_of_not_mem_cons h
      by_cases hreturn : c = '\r' ∧ front = []
      · obtain ⟨rfl, rfl⟩ := hreturn
        refine ⟨line, by simp [feedLines], ?_⟩
        exact (LineText.stripBy_append_blanks (List.all_iff_forall_prop.mp (by decide)) line).symm
      · obtain ⟨piece, hpiece, htrim⟩ := ih (line ++ [c]) hfront
        refine ⟨piece, ?_, by rw [htrim, List.append_assoc, List.singleton_append]⟩
        rw [List.cons_append, feedLines, hpiece]
        · rintro cs rfl hcs
          cases front with
          | nil => exact hreturn ⟨rfl, rfl⟩
          | cons d front =>
              rw [List.cons_append] at hcs
              cases hcs
              exact hfront List.mem_cons_self
        · exact fun heq => hc heq.symm

/-- The lines of joined lines are the lines, but for the white space around them. -/
theorem splitLines_join {lines : List (List Char)} (h : ∀ line ∈ lines, '\n' ∉ line) :
    splitLines (['\n'].intercalate lines) = trimmed lines := by
  rw [splitLines, trimmed, trimmed]
  induction lines with
  | nil => decide
  | cons line lines ih =>
      obtain ⟨hline, hlines⟩ := List.forall_mem_cons.mp h
      cases lines with
      | nil =>
          have hjoin : ['\n'].intercalate [line] = line := by simp
          rw [hjoin, feedLines_last hline, List.nil_append]
      | cons next lines =>
          obtain ⟨piece, hpiece, htrim⟩ := feedLines_append [] hline
            (['\n'].intercalate (next :: lines))
          rw [List.nil_append] at htrim
          rw [List.intercalate_cons_cons, List.append_assoc, List.singleton_append, hpiece,
            List.map_cons, List.map_cons, htrim, List.filter_cons, List.filter_cons, ih hlines]

/-! ### Commas -/

/-- What follows a comma and a space is trimmed to what follows the comma. -/
theorem map_trim_splitOn (gap : List Char) (hgap : ∀ c ∈ gap, c = ' ') {piece : List Char}
    {pieces : List (List Char)} (h : ∀ p ∈ piece :: pieces, ',' ∉ p) :
    ((gap ++ [',', ' '].intercalate (piece :: pieces)).splitOn ',').map trim =
      (piece :: pieces).map trim := by
  have hcomma : ',' ∉ gap := fun hmem => absurd (hgap _ hmem) (by decide)
  have htrim (text : List Char) : trim (gap ++ text) = trim text := by
    refine LineText.stripBy_blank_append (List.dropWhile_eq_nil_iff.mpr fun c hc => ?_) text
    rw [hgap c hc]
    rfl
  induction pieces generalizing gap piece with
  | nil =>
      have hpiece := h piece List.mem_cons_self
      have hjoin : [',', ' '].intercalate [piece] = piece := by simp
      rw [hjoin, List.splitOn_eq_singleton (by simp [hcomma, hpiece]), List.map_singleton, htrim]
      rfl
  | cons next pieces ih =>
      obtain ⟨hpiece, hpieces⟩ := List.forall_mem_cons.mp h
      have hsplit : gap ++ [',', ' '].intercalate (piece :: next :: pieces) =
          (gap ++ piece) ++ ',' :: ([' '] ++ [',', ' '].intercalate (next :: pieces)) := by
        rw [List.intercalate_cons_cons]
        simp
      have hspace (text : List Char) : trim ([' '] ++ text) = trim text :=
        LineText.stripBy_blank_append (by decide) text
      rw [hsplit, List.splitOn_append_cons_self_of_not_mem (by simp [hcomma, hpiece]), List.map_cons,
        htrim, ih [' '] (by simp) hpieces (by simp) hspace]
      rfl

/-- The pieces of texts that are joined with a comma and a space. -/
theorem splitCommas_join {pieces : List (List Char)} (h : ∀ piece ∈ pieces, ',' ∉ piece) :
    splitCommas ([',', ' '].intercalate pieces) = trimmed pieces := by
  cases pieces with
  | nil => decide
  | cons piece pieces =>
      have hmap := map_trim_splitOn [] (by simp) h
      rw [List.nil_append] at hmap
      rw [splitCommas, trimmed, trimmed, hmap]

end ScriptText

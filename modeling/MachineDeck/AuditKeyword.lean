import MachineDeck.AuditCategories

/-!
# The keyword of an audit query

The keyword is escaped by three replacements, put between two wildcards and given to `LIKE`.

* `toList_escaped` — the replacements in a row escape each character of the keyword once;
* `like_escaped` — an escaped text is matched by itself, whatever characters it has;
* `like_inside` — between two wildcards it is matched by the texts that hold it;
* `keyword_literal` — the keyword selects the events that show it somewhere.
-/

namespace MachineDeck.Audit

/-- The keyword is part of the text, where the case of ASCII letters is ignored. -/
def Holds (text keyword : String) : Prop :=
  keyword.toList.map Char.toLower <:+: text.toList.map Char.toLower

instance (text keyword : String) : Decidable (Holds text keyword) :=
  inferInstanceAs (Decidable (_ <:+: _))

/-! ### The pattern -/

def escapedChar (c : Char) : List Char :=
  if c = '\\' ∨ c = '%' ∨ c = '_' then ['\\', c] else [c]

/-- A later replacement meets the backslashes of the earlier ones, and leaves them alone. -/
theorem toList_escaped (keyword : String) :
    (escaped keyword).toList = keyword.toList.flatMap escapedChar := by
  simp only [escaped, LineText.toList_replaceChar, List.flatMap_assoc]
  congr 1
  funext c
  by_cases hescape : c = '\\'
  · subst hescape
    rfl
  · by_cases hpercent : c = '%'
    · subst hpercent
      rfl
    · by_cases hunderscore : c = '_'
      · subst hunderscore
        rfl
      · simp [escapedChar, hescape, hpercent, hunderscore]

theorem like_escape (c : Char) (pattern : List Char) (e : Char) (text : List Char) :
    like (some '\\') ('\\' :: c :: pattern) (e :: text) =
      (c.toLower == e.toLower && like (some '\\') pattern text) := by
  delta like
  simp [like._f]

theorem like_escape_nil (c : Char) (pattern : List Char) :
    like (some '\\') ('\\' :: c :: pattern) [] = false := by
  delta like
  simp [like._f]

/-- An escaped character is compared with the next one of the text. -/
theorem like_escapedChar (c : Char) (pattern : List Char) (e : Char) (text : List Char) :
    like (some '\\') (escapedChar c ++ pattern) (e :: text) =
      (c.toLower == e.toLower && like (some '\\') pattern text) := by
  by_cases hspecial : c = '\\' ∨ c = '%' ∨ c = '_'
  · rw [escapedChar, if_pos hspecial]
    exact like_escape c pattern e text
  · rw [escapedChar, if_neg hspecial]
    push Not at hspecial
    obtain ⟨hescape, hpercent, hunderscore⟩ := hspecial
    exact like_cons hpercent hunderscore (fun h => hescape (Option.some.inj h).symm) pattern e text

theorem like_escapedChar_nil (c : Char) (pattern : List Char) :
    like (some '\\') (escapedChar c ++ pattern) [] = false := by
  by_cases hspecial : c = '\\' ∨ c = '%' ∨ c = '_'
  · rw [escapedChar, if_pos hspecial]
    exact like_escape_nil c pattern
  · rw [escapedChar, if_neg hspecial]
    push Not at hspecial
    obtain ⟨hescape, hpercent, hunderscore⟩ := hspecial
    exact like_cons_nil hpercent hunderscore (fun h => hescape (Option.some.inj h).symm) pattern

/-- An escaped text is matched by itself without its case, and by nothing else. -/
theorem like_escaped (keyword pattern text : List Char) :
    like (some '\\') (keyword.flatMap escapedChar ++ pattern) text = true ↔
      ∃ found rest, text = found ++ rest ∧ found.map Char.toLower = keyword.map Char.toLower ∧
        like (some '\\') pattern rest = true := by
  induction keyword generalizing text with
  | nil =>
      constructor
      · intro h
        exact ⟨[], text, rfl, rfl, h⟩
      · intro ⟨found, rest, htext, hfound, h⟩
        rw [List.map_nil, List.map_eq_nil_iff] at hfound
        subst hfound htext
        exact h
  | cons c keyword ih =>
      rw [List.flatMap_cons, List.append_assoc]
      cases text with
      | nil =>
          rw [like_escapedChar_nil]
          constructor
          · intro h
            cases h
          · intro ⟨found, rest, htext, hfound, _⟩
            obtain ⟨rfl, -⟩ := List.append_eq_nil_iff.mp htext.symm
            cases hfound
      | cons e text =>
          rw [like_escapedChar, Bool.and_eq_true, beq_iff_eq, ih]
          constructor
          · intro ⟨hc, found, rest, htext, hfound, h⟩
            refine ⟨e :: found, rest, by rw [htext]; rfl, ?_, h⟩
            rw [List.map_cons, List.map_cons, hc, hfound]
          · intro ⟨found, rest, htext, hfound, h⟩
            cases found with
            | nil => cases hfound
            | cons d found =>
                obtain ⟨rfl, hrest⟩ := List.cons.inj htext
                rw [List.map_cons, List.map_cons] at hfound
                obtain ⟨hc, hfound⟩ := List.cons.inj hfound
                exact ⟨hc.symm, found, rest, hrest, hfound, h⟩

/-- The wildcard at the front tries every rest of the text. -/
theorem like_anywhere (escape : Option Char) (pattern text : List Char) :
    like escape ('%' :: pattern) text = true ↔
      ∃ before rest, text = before ++ rest ∧ like escape pattern rest = true := by
  show text.tails.any (like escape pattern) = true ↔ _
  rw [List.any_eq_true]
  constructor
  · intro ⟨rest, hrest, h⟩
    obtain ⟨before, htext⟩ := (List.mem_tails _ _).mp hrest
    exact ⟨before, rest, htext.symm, h⟩
  · intro ⟨before, rest, htext, h⟩
    exact ⟨rest, (List.mem_tails _ _).mpr ⟨before, htext.symm⟩, h⟩

theorem like_inside (keyword text : List Char) :
    like (some '\\') ('%' :: keyword.flatMap escapedChar ++ ['%']) text = true ↔
      keyword.map Char.toLower <:+: text.map Char.toLower := by
  rw [List.cons_append, like_anywhere]
  constructor
  · intro ⟨before, rest, htext, h⟩
    obtain ⟨found, after, hrest, hfound, -⟩ := (like_escaped keyword ['%'] rest).mp h
    refine ⟨before.map Char.toLower, after.map Char.toLower, ?_⟩
    rw [htext, hrest, List.map_append, List.map_append, hfound, List.append_assoc]
  · intro ⟨before, after, htext⟩
    rw [List.append_assoc] at htext
    obtain ⟨front, rest, hsplit, -, hrest⟩ := List.map_eq_append_iff.mp htext.symm
    obtain ⟨found, back, hback, hfound, -⟩ := List.map_eq_append_iff.mp hrest
    exact ⟨front, rest, hsplit, (like_escaped keyword ['%'] rest).mpr
      ⟨found, back, hback, hfound, like_any _ back⟩⟩

theorem ilike_iff (keyword text : String) : ilike keyword text = true ↔ Holds text keyword := by
  rw [ilike, keywordPattern, toList_escaped]
  exact like_inside keyword.toList text.toList

/-! ### The query -/

theorem selects_keyword (py : Python) {keyword : String} (hkeyword : keyword ≠ "")
    (filters : AuditFilters) (r : AuditEventRecord) :
    ({ filters with keyword := some keyword } : AuditFilters).selects py r = true ↔
      ({ filters with keyword := none } : AuditFilters).selects py r = true ∧
        (Holds r.actor keyword ∨ Holds r.action keyword ∨ Holds r.targetId keyword ∨
          Holds r.result keyword) := by
  have hgiven : given (some keyword) = some keyword := by simp [given, hkeyword]
  have hnone : given none = none := rfl
  simp only [AuditFilters.selects, AuditFilters.conditions, hgiven, hnone, List.all_append,
    Bool.and_eq_true, Option.toList_some, Option.toList_none, List.map_cons, List.map_nil,
    List.all_cons, List.all_nil, and_true, Bool.or_eq_true, ilike_iff, or_assoc]

end MachineDeck.Audit

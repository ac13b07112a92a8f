import Mathlib.Data.List.Sort
import Mathlib.Algebra.Order.Floor.Div

/-!
# Keyset pagination

Rows are read page by page in descending order of a key, each page continuing below the key of
the last row of the page before it.  One row more than the page holds is read, to know whether
there are more.  The table may grow from one page to the next.

* `ordered`, `below` — the rows in reading order, the rows a page may still hold;
* `pages` — the pages read from a sequence of tables, and whether the last page was reached;
* `pages_descending`, `pages_complete` — the pages read in one descending sequence, and nothing
  that was there at the start is left out of them;
* `length_pages` — the number of pages of a table that does not grow.
-/

namespace KeysetPages

variable {α κ : Type} [LinearOrder κ] (key : α → κ)

/-- The rows from the greatest key down. -/
def ordered (rows : List α) : List α := rows.insertionSort fun a b => key b ≤ key a

theorem ordered_perm (rows : List α) : (ordered key rows).Perm rows :=
  List.perm_insertionSort _ rows

@[simp] theorem mem_ordered {rows : List α} {a : α} : a ∈ ordered key rows ↔ a ∈ rows :=
  (ordered_perm key rows).mem_iff

@[simp] theorem length_ordered (rows : List α) : (ordered key rows).length = rows.length :=
  (ordered_perm key rows).length_eq

theorem pairwise_ordered (rows : List α) :
    (ordered key rows).Pairwise fun a b => key b ≤ key a := by
  have htotal : Std.Total fun a b : α => key b ≤ key a := ⟨fun a b => le_total (key b) (key a)⟩
  have htrans : IsTrans α fun a b : α => key b ≤ key a := ⟨fun _ _ _ hab hbc => hbc.trans hab⟩
  exact List.pairwise_insertionSort (fun a b : α => key b ≤ key a) rows

/-- Rows with keys of their own are in strictly descending order. -/
theorem ordered_descending {rows : List α} (hkeys : (rows.map key).Nodup) :
    (ordered key rows).Pairwise fun a b => key b < key a := by
  have hsorted := pairwise_ordered key rows
  have hdistinct : ((ordered key rows).map key).Nodup :=
    ((ordered_perm key rows).map key).nodup_iff.mpr hkeys
  rw [List.Nodup, List.pairwise_map] at hdistinct
  exact (hsorted.and hdistinct).imp fun ⟨hle, hne⟩ => lt_of_le_of_ne hle (Ne.symm hne)

theorem nodup_of_descending {rows : List α} (hdesc : rows.Pairwise fun a b => key b < key a) :
    rows.Nodup := by
  apply hdesc.imp
  intro a b hlt heq
  exact lt_irrefl (key a) (by rwa [heq] at hlt ⊢)

/-- The rows below the cursor, every row where there is none. -/
def below (cursor : Option κ) (a : α) : Bool :=
  cursor.all fun k => decide (key a < k)

@[simp] theorem below_none (a : α) : below key none a = true := rfl

@[simp] theorem below_some (k : κ) (a : α) : below key (some k) a = decide (key a < k) := rfl

/-- The rows a page is cut from: what is below the cursor, in reading order. -/
def remaining (cursor : Option κ) (rows : List α) : List α :=
  ordered key (rows.filter (below key cursor))

@[simp] theorem mem_remaining {cursor : Option κ} {rows : List α} {a : α} :
    a ∈ remaining key cursor rows ↔ a ∈ rows ∧ below key cursor a = true := by
  simp [remaining]

theorem remaining_descending (cursor : Option κ) {rows : List α}
    (hkeys : (rows.map key).Nodup) :
    (remaining key cursor rows).Pairwise fun a b => key b < key a :=
  ordered_descending key (hkeys.sublist (List.filter_sublist.map key))

/-- The pages read from the tables, one request to a table.  The second part says whether the
last page was reached. -/
def pages (limit : ℕ) : Option κ → List (List α) → List (List α) × Bool
  | _, [] => ([], false)
  | cursor, rows :: later =>
    let read := (remaining key cursor rows).take (limit + 1)
    let page := read.take limit
    if limit < read.length then
      let rest := pages limit (page.getLast?.map key) later
      (page :: rest.1, rest.2)
    else ([page], true)

/-! ### One page -/

theorem take_page (limit : ℕ) (rows : List α) :
    (rows.take (limit + 1)).take limit = rows.take limit := by
  rw [List.take_take, Nat.min_eq_left (Nat.le_succ limit)]

theorem more_iff (limit : ℕ) (rows : List α) :
    limit < (rows.take (limit + 1)).length ↔ limit < rows.length := by
  rw [List.length_take]
  omega

theorem pages_more {limit : ℕ} {cursor : Option κ} {rows : List α} {later : List (List α)}
    (hmore : limit < (remaining key cursor rows).length) :
    pages key limit cursor (rows :: later) =
      (((remaining key cursor rows).take limit) ::
        (pages key limit (((remaining key cursor rows).take limit).getLast?.map key) later).1,
        (pages key limit (((remaining key cursor rows).take limit).getLast?.map key) later).2) := by
  simp only [pages, take_page, (more_iff limit _).mpr hmore, if_true]

theorem pages_last {limit : ℕ} {cursor : Option κ} {rows : List α} {later : List (List α)}
    (hlast : ¬ limit < (remaining key cursor rows).length) :
    pages key limit cursor (rows :: later) = ([remaining key cursor rows], true) := by
  have hread : ¬ limit < ((remaining key cursor rows).take (limit + 1)).length :=
    fun h => hlast ((more_iff limit _).mp h)
  simp only [pages, take_page, hread, if_false]
  rw [List.take_of_length_le (not_lt.mp hlast)]

/-- A descending list cut after a nonempty part: what is left is what is below that part's last
row. -/
theorem mem_drop_iff {rows : List α} (hdesc : rows.Pairwise fun a b => key b < key a)
    {limit : ℕ} {last : α} (hlast : (rows.take limit).getLast? = some last) (a : α) :
    a ∈ rows.drop limit ↔ a ∈ rows ∧ key a < key last := by
  obtain ⟨front, hfront⟩ := List.getLast?_eq_some_iff.mp hlast
  have hsplit : rows = front ++ last :: rows.drop limit := by
    conv_lhs => rw [← List.take_append_drop limit rows, hfront]
    simp
  have hdesc' := hsplit ▸ hdesc
  rw [List.pairwise_append, List.pairwise_cons] at hdesc'
  obtain ⟨-, ⟨hbelow, -⟩, habove⟩ := hdesc'
  constructor
  · intro ha
    exact ⟨List.mem_of_mem_drop ha, hbelow a ha⟩
  · rintro ⟨ha, hlt⟩
    rw [hsplit, List.mem_append, List.mem_cons] at ha
    rcases ha with ha | rfl | ha
    · exact absurd hlt (lt_asymm (habove a ha last (by simp)))
    · exact absurd hlt (lt_irrefl _)
    · exact ha

/-- What the next page starts from, where the table did not grow in between. -/
theorem remaining_next {cursor : Option κ} {rows : List α} (hkeys : (rows.map key).Nodup)
    {limit : ℕ} {last : α}
    (hlast : ((remaining key cursor rows).take limit).getLast? = some last) :
    (remaining key (some (key last)) rows).Perm ((remaining key cursor rows).drop limit) := by
  have hdesc := remaining_descending key cursor hkeys
  have hcursor : below key cursor last = true :=
    ((mem_remaining key).mp (List.mem_of_mem_take (List.mem_of_getLast? hlast))).2
  apply (List.perm_ext_iff_of_nodup (nodup_of_descending key (remaining_descending key _ hkeys))
    (nodup_of_descending key (hdesc.sublist (List.drop_sublist _ _)))).mpr
  intro a
  rw [mem_drop_iff key hdesc hlast, mem_remaining, mem_remaining]
  constructor
  · rintro ⟨ha, hlt⟩
    have hlt : key a < key last := by simpa using hlt
    refine ⟨⟨ha, ?_⟩, hlt⟩
    cases cursor with
    | none => rfl
    | some k => simpa using hlt.trans (by simpa using hcursor)
  · rintro ⟨⟨ha, -⟩, hlt⟩
    exact ⟨ha, by simpa using hlt⟩

/-! ### Every page -/

/-- A page that is not the last one ends with a row, below the cursor. -/
theorem page_last {limit : ℕ} (hlimit : 1 ≤ limit) {cursor : Option κ} {rows : List α}
    (hmore : limit < (remaining key cursor rows).length) :
    ∃ last, ((remaining key cursor rows).take limit).getLast? = some last ∧ last ∈ rows ∧
      below key cursor last = true := by
  cases hlast : ((remaining key cursor rows).take limit).getLast? with
  | none =>
      have hnil := congrArg List.length (List.getLast?_eq_none_iff.mp hlast)
      simp only [List.length_take, List.length_nil] at hnil
      omega
  | some last =>
      have hmem := List.mem_of_mem_take (List.mem_of_getLast? hlast)
      exact ⟨last, rfl, (mem_remaining key).mp hmem⟩

theorem mem_pages {limit : ℕ} {cursor : Option κ} {tables : List (List α)} {a : α}
    (ha : a ∈ (pages key limit cursor tables).1.flatten) : ∃ rows ∈ tables, a ∈ rows := by
  induction tables generalizing cursor with
  | nil => simp [pages] at ha
  | cons rows later ih =>
      by_cases hmore : limit < (remaining key cursor rows).length
      · rw [pages_more key hmore, List.flatten_cons, List.mem_append] at ha
        rcases ha with ha | ha
        · exact ⟨rows, by simp, ((mem_remaining key).mp (List.mem_of_mem_take ha)).1⟩
        · obtain ⟨table, htable, ha⟩ := ih ha
          exact ⟨table, by simp [htable], ha⟩
      · rw [pages_last key hmore] at ha
        exact ⟨rows, by simp, ((mem_remaining key).mp (by simpa using ha)).1⟩

theorem below_of_mem_pages {limit : ℕ} (hlimit : 1 ≤ limit) {cursor : Option κ}
    {tables : List (List α)} {a : α} (ha : a ∈ (pages key limit cursor tables).1.flatten) :
    below key cursor a = true := by
  induction tables generalizing cursor with
  | nil => simp [pages] at ha
  | cons rows later ih =>
      by_cases hmore : limit < (remaining key cursor rows).length
      · obtain ⟨last, hlast, -, hcursor⟩ := page_last key hlimit hmore
        rw [pages_more key hmore, List.flatten_cons, List.mem_append, hlast] at ha
        rcases ha with ha | ha
        · exact ((mem_remaining key).mp (List.mem_of_mem_take ha)).2
        · have hlt : key a < key last := by simpa using ih ha
          cases cursor with
          | none => rfl
          | some k => simpa using hlt.trans (by simpa using hcursor)
      · rw [pages_last key hmore] at ha
        exact ((mem_remaining key).mp (by simpa using ha)).2

/-- The pages are one strictly descending sequence, whatever was inserted between them. -/
theorem pages_descending {limit : ℕ} (hlimit : 1 ≤ limit) (cursor : Option κ)
    {tables : List (List α)} (hkeys : ∀ rows ∈ tables, (rows.map key).Nodup) :
    ((pages key limit cursor tables).1.flatten).Pairwise fun a b => key b < key a := by
  induction tables generalizing cursor with
  | nil => simp [pages]
  | cons rows later ih =>
      have hdesc := remaining_descending key cursor (hkeys rows (by simp))
      by_cases hmore : limit < (remaining key cursor rows).length
      · obtain ⟨last, hlast, -, -⟩ := page_last key hlimit hmore
        rw [pages_more key hmore, List.flatten_cons, List.pairwise_append, hlast]
        refine ⟨hdesc.sublist (List.take_sublist _ _),
          ih _ fun rows hrows => hkeys rows (by simp [hrows]), fun a ha b hb => ?_⟩
        have hb : key b < key last := by simpa using below_of_mem_pages key hlimit hb
        -- every row of the page is the last one or above it
        obtain ⟨front, hfront⟩ := List.getLast?_eq_some_iff.mp hlast
        have hpage := hfront ▸ hdesc.sublist (List.take_sublist limit _)
        rw [hfront, List.mem_append, List.mem_singleton] at ha
        rcases ha with ha | rfl
        · exact hb.trans ((List.pairwise_append.mp hpage).2.2 a ha last (by simp))
        · exact hb
      · rw [pages_last key hmore]
        simpa using hdesc

/-- Once the last page is reached, every row of the first table that was below the cursor has
been read. -/
theorem pages_complete {limit : ℕ} (hlimit : 1 ≤ limit) {cursor : Option κ} {rows : List α}
    {later : List (List α)} (hkeys : ∀ table ∈ rows :: later, (table.map key).Nodup)
    (hgrow : (rows :: later).IsChain fun earlier table => earlier ⊆ table)
    (hdone : (pages key limit cursor (rows :: later)).2 = true) {a : α} (ha : a ∈ rows)
    (hcursor : below key cursor a = true) :
    a ∈ (pages key limit cursor (rows :: later)).1.flatten := by
  have hread : a ∈ remaining key cursor rows := (mem_remaining key).mpr ⟨ha, hcursor⟩
  induction later generalizing cursor rows with
  | nil =>
      by_cases hmore : limit < (remaining key cursor rows).length
      · rw [pages_more key hmore] at hdone
        simp [pages] at hdone
      · simpa [pages_last key hmore] using ⟨ha, hcursor⟩
  | cons next later ih =>
      by_cases hmore : limit < (remaining key cursor rows).length
      · obtain ⟨last, hlast, -, -⟩ := page_last key hlimit hmore
        have hdesc := remaining_descending key cursor (hkeys rows (by simp))
        obtain ⟨hnext, hrest⟩ := List.isChain_cons_cons.mp hgrow
        rw [pages_more key hmore, hlast] at hdone ⊢
        rw [← List.take_append_drop limit (remaining key cursor rows), List.mem_append] at hread
        rw [List.flatten_cons, List.mem_append]
        rcases hread with hread | hread
        · exact Or.inl hread
        · have hlt := ((mem_drop_iff key hdesc hlast a).mp hread).2
          refine Or.inr (ih (fun table htable => hkeys table (by simp [htable])) hrest
            hdone (hnext ha) (by simpa using hlt) ?_)
          exact (mem_remaining key).mpr ⟨hnext ha, by simpa using hlt⟩
      · simpa [pages_last key hmore] using ⟨ha, hcursor⟩

/-- A table that does not grow is read in as many pages as its rows fill, and in one where it has
none. -/
theorem length_pages {limit : ℕ} (hlimit : 1 ≤ limit) (cursor : Option κ) {rows : List α}
    (hkeys : (rows.map key).Nodup) {requests : ℕ}
    (hrequests : max 1 ((remaining key cursor rows).length ⌈/⌉ limit) ≤ requests) :
    (pages key limit cursor (List.replicate requests rows)).2 = true ∧
      (pages key limit cursor (List.replicate requests rows)).1.length =
        max 1 ((remaining key cursor rows).length ⌈/⌉ limit) := by
  induction requests generalizing cursor with
  | zero => omega
  | succ requests ih =>
      rw [List.replicate_succ]
      by_cases hmore : limit < (remaining key cursor rows).length
      · obtain ⟨last, hlast, -, -⟩ := page_last key hlimit hmore
        have hnext : (remaining key (some (key last)) rows).length + limit =
            (remaining key cursor rows).length := by
          rw [(remaining_next key hkeys hlast).length_eq, List.length_drop]
          omega
        have hceil : max 1 ((remaining key cursor rows).length ⌈/⌉ limit) =
            max 1 ((remaining key (some (key last)) rows).length ⌈/⌉ limit) + 1 := by
          rw [← hnext, Nat.ceilDiv_eq_add_pred_div, Nat.ceilDiv_eq_add_pred_div]
          have hpos : 0 < (remaining key (some (key last)) rows).length := by omega
          rw [show (remaining key (some (key last)) rows).length + limit + limit - 1 =
            ((remaining key (some (key last)) rows).length + limit - 1) + limit by omega,
            Nat.add_div_right _ (by omega)]
          have hone : 1 ≤ ((remaining key (some (key last)) rows).length + limit - 1) / limit :=
            (Nat.one_le_div_iff (by omega)).mpr (by omega)
          omega
        obtain ⟨hdone, hlength⟩ := ih (some (key last)) (by omega)
        rw [pages_more key hmore, hlast]
        exact ⟨hdone, by rw [List.length_cons, hceil]; exact congrArg (· + 1) hlength⟩
      · have hceil : (remaining key cursor rows).length ⌈/⌉ limit ≤ 1 := by
          rw [ceilDiv_le_iff_le_mul (by omega)]
          omega
        rw [pages_last key hmore, max_eq_left hceil]
        exact ⟨rfl, rfl⟩

end KeysetPages

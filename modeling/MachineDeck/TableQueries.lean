import Mathlib.Data.Finmap
import Mathlib.Data.Finset.Sort
import Mathlib.Algebra.BigOperators.Group.Finset.Basic

/-!
# Queries on a keyed table

* `rows` — the rows of a table, each with its key;
* `firstValues` — a dictionary filled with `setdefault`, which keeps the first value of a key;
* `tally` — a dictionary of counters.

`lookup_firstValues_of_perm` says that on a table with one row for each key the order in which the
rows are read does not matter; `tally_eq_countP` and `sum_tally` that a tally counts and leaves
nothing out.
-/

namespace TableQueries

/-! ### Rows -/

section Rows

variable {κ ρ : Type} [LinearOrder κ]

/-- The rows in the order of their keys. -/
def rows (table : Finmap fun _ : κ => ρ) : List (κ × ρ) :=
  (table.keys.sort (· ≤ ·)).filterMap fun key => (table.lookup key).map fun row => (key, row)

theorem mem_rows {table : Finmap fun _ : κ => ρ} {key : κ} {row : ρ} :
    (key, row) ∈ rows table ↔ table.lookup key = some row := by
  simp only [rows, List.mem_filterMap, Finset.mem_sort, Finmap.mem_keys, Option.map_eq_some_iff,
    Prod.mk.injEq]
  constructor
  · rintro ⟨key', -, row', hlookup, rfl, rfl⟩
    exact hlookup
  · intro hlookup
    exact ⟨key, Finmap.mem_of_lookup_eq_some hlookup, row, hlookup, rfl, rfl⟩

/-- Every key has its row, so the keys of the rows are the keys of the table. -/
theorem rows_keys (table : Finmap fun _ : κ => ρ) :
    (rows table).map Prod.fst = table.keys.sort (· ≤ ·) := by
  have hkeys : ∀ keys : List κ, (∀ key ∈ keys, key ∈ table) →
      (keys.filterMap fun key => (table.lookup key).map fun row => (key, row)).map Prod.fst =
        keys := by
    intro keys hkeys
    induction keys with
    | nil => rfl
    | cons key keys ih =>
        obtain ⟨row, hrow⟩ := Finmap.mem_iff.mp (hkeys key List.mem_cons_self)
        rw [List.filterMap_cons, hrow]
        show key :: _ = key :: keys
        rw [ih fun key' hkey' => hkeys key' (List.mem_cons_of_mem key hkey')]
  exact hkeys _ fun key hkey => Finmap.mem_keys.mp ((Finset.mem_sort _).mp hkey)

theorem nodup_rows_keys (table : Finmap fun _ : κ => ρ) : ((rows table).map Prod.fst).Nodup := by
  rw [rows_keys]
  exact Finset.sort_nodup _ _

@[simp] theorem length_rows (table : Finmap fun _ : κ => ρ) :
    (rows table).length = table.keys.card := by
  rw [← List.length_map Prod.fst, rows_keys, Finset.length_sort]

end Rows

/-! ### First values -/

section FirstValues

variable {κ υ : Type} [DecidableEq κ]

/-- `entries.setdefault(key, value)`. -/
def setDefault (entries : List (κ × υ)) (entry : κ × υ) : List (κ × υ) :=
  if (entries.lookup entry.1).isSome then entries else entries ++ [entry]

def firstValues (entries : List (κ × υ)) : List (κ × υ) := entries.foldl setDefault []

theorem lookup_setDefault (entries : List (κ × υ)) (entry : κ × υ) (key : κ) :
    (setDefault entries entry).lookup key = (entries ++ [entry]).lookup key := by
  rw [setDefault]
  split
  · rename_i hpresent
    rw [List.lookup_append, List.lookup_cons, List.lookup_nil]
    by_cases hkey : key = entry.1
    · obtain ⟨value, hvalue⟩ := Option.isSome_iff_exists.mp hpresent
      rw [hkey, hvalue]
      rfl
    · rw [beq_eq_false_iff_ne.mpr hkey, Option.or_none]
  · rfl

/-- The first value of a key is kept. -/
theorem lookup_firstValues (entries : List (κ × υ)) (key : κ) :
    (firstValues entries).lookup key = entries.lookup key := by
  have hfold : ∀ before : List (κ × υ),
      (entries.foldl setDefault before).lookup key = (before ++ entries).lookup key := by
    induction entries with
    | nil =>
        intro before
        rw [List.foldl_nil, List.append_nil]
    | cons entry entries ih =>
        intro before
        rw [List.foldl_cons, ih, List.lookup_append, lookup_setDefault, ← List.lookup_append,
          List.append_assoc, List.singleton_append]
  exact hfold []

/-- Where every key occurs once, an entry is what a lookup of its key finds. -/
theorem lookup_eq_some_iff {entries : List (κ × υ)} (h : (entries.map Prod.fst).Nodup) {key : κ}
    {value : υ} : entries.lookup key = some value ↔ (key, value) ∈ entries := by
  induction entries with
  | nil => simp
  | cons entry entries ih =>
      obtain ⟨first, second⟩ := entry
      obtain ⟨hnew, hnodup⟩ := List.nodup_cons.mp h
      rw [List.lookup_cons, List.mem_cons, Prod.mk.injEq]
      by_cases hkey : key = first
      · have habsent : (key, value) ∉ entries := fun hmem =>
          hnew (List.mem_map.mpr ⟨(key, value), hmem, hkey⟩)
        simp [hkey, eq_comm, hkey ▸ habsent]
      · rw [beq_eq_false_iff_ne.mpr hkey]
        simp [hkey, ih hnodup]

/-- The order of the entries does not matter where every key occurs once. -/
theorem lookup_firstValues_of_perm {entries entries' : List (κ × υ)} (hperm : entries.Perm entries')
    (h : (entries'.map Prod.fst).Nodup) (key : κ) :
    (firstValues entries).lookup key = entries'.lookup key := by
  rw [lookup_firstValues]
  refine Option.ext fun value => ?_
  rw [lookup_eq_some_iff ((hperm.map Prod.fst).nodup_iff.mpr h), lookup_eq_some_iff h,
    hperm.mem_iff]

end FirstValues

/-! ### Counters -/

section Tally

variable {α β : Type} [DecidableEq β]

/-- `counts[bucket] += 1`. -/
def increment (counts : β → ℕ) (bucket : β) : β → ℕ :=
  Function.update counts bucket (counts bucket + 1)

def tally (bucketOf : α → β) (items : List α) : β → ℕ :=
  items.foldl (fun counts item => increment counts (bucketOf item)) fun _ => 0

theorem tally_eq_countP (bucketOf : α → β) (items : List α) (bucket : β) :
    tally bucketOf items bucket = items.countP fun item => bucketOf item = bucket := by
  have hfold : ∀ counts : β → ℕ,
      items.foldl (fun counts item => increment counts (bucketOf item)) counts bucket =
        counts bucket + items.countP fun item => bucketOf item = bucket := by
    induction items with
    | nil => exact fun _ => rfl
    | cons item items ih =>
        intro counts
        rw [List.foldl_cons, ih, List.countP_cons, increment]
        by_cases hbucket : bucketOf item = bucket
        · rw [hbucket, Function.update_self, if_pos (decide_eq_true rfl)]
          omega
        · rw [Function.update_of_ne (Ne.symm hbucket), if_neg (by simpa using hbucket)]
          omega
  have hstart := hfold fun _ => 0
  rwa [Nat.zero_add] at hstart

/-- A tally leaves no item out. -/
theorem sum_tally [Fintype β] (bucketOf : α → β) (items : List α) :
    ∑ bucket, tally bucketOf items bucket = items.length := by
  have hcount : ∀ bucket, tally bucketOf items bucket = (items.map bucketOf : Multiset β).count
      bucket := by
    intro bucket
    rw [tally_eq_countP, Multiset.coe_count, List.count, List.countP_map]
    exact List.countP_congr fun item _ => by simp
  rw [Finset.sum_congr rfl fun bucket _ => hcount bucket,
    Multiset.sum_count_eq_card fun a _ => Finset.mem_univ a, Multiset.coe_card, List.length_map]

/-- A property that is counted as often as a weaker one holds wherever the weaker one does. -/
theorem holds_of_countP_le {p q : α → Bool} {items : List α}
    (hpq : ∀ item ∈ items, p item = true → q item = true)
    (hle : items.countP q ≤ items.countP p) : ∀ item ∈ items, q item = true → p item = true := by
  induction items with
  | nil =>
      intro item hitem
      cases hitem
  | cons head items ih =>
      have hrest := fun item hitem => hpq item (List.mem_cons_of_mem head hitem)
      have hmono : items.countP p ≤ items.countP q := List.countP_mono_left hrest
      have hhead := hpq head List.mem_cons_self
      rw [List.countP_cons, List.countP_cons] at hle
      have hsame : q head = true → p head = true := by
        intro hq
        by_contra hp
        rw [if_pos hq, if_neg hp] at hle
        omega
      have htail : items.countP q ≤ items.countP p := by
        by_cases hq : q head = true
        · rw [if_pos hq, if_pos (hsame hq)] at hle
          omega
        · rw [if_neg hq, if_neg fun hp => hq (hhead hp)] at hle
          omega
      intro item hitem hq
      rcases List.mem_cons.mp hitem with rfl | hitem
      · exact hsame hq
      · exact ih hrest htail item hitem hq

end Tally

end TableQueries

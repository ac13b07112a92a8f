import Mathlib

/-!
# Trees of files

A file system as a tree of named entries, and what removing entries from it leaves.

* `Node`, `FileTree` — the kinds of entries; every entry but the root stands in a directory;
* `FileTree.without` — the tree without some of its entries: an entry goes when everything below
  it goes;
* `lookup_unlink`, `lookup_rmtree` — one entry that is no directory, and a directory with all that
  is below it.

A path is the list of the names on the way from the root.  Links above the entry that is meant are
followed: a path is the place where the entry is.
-/

abbrev EntryPath := List String

inductive Node where
  | directory
  | regular (owner : ℕ) (readable : Bool) (content : ByteArray)
  | symlink
  | fifo
  | special
  deriving DecidableEq

structure FileTree where
  entries : List (EntryPath × Node)
  nodup : (entries.map Prod.fst).Nodup
  inDirectory : ∀ e ∈ entries, e.1 ≠ [] → entries.lookup e.1.dropLast = some .directory

namespace FileTree

variable {tree : FileTree} {path p : EntryPath} {gone : EntryPath → Bool}

def lookup (tree : FileTree) (path : EntryPath) : Option Node := tree.entries.lookup path

def paths (tree : FileTree) : List EntryPath := tree.entries.map Prod.fst

/-- The names in a directory. -/
def names (tree : FileTree) (directory : EntryPath) : List String :=
  tree.paths.filterMap fun path => if path.dropLast = directory then path.getLast? else none

/-- Whether an entry goes with everything below it. -/
def goes (tree : FileTree) (gone : EntryPath → Bool) (path : EntryPath) : Bool :=
  tree.paths.all fun below => !path.isPrefixOf below || gone below

/-! ### Entries -/

theorem lookup_eq_none_iff : tree.lookup path = none ↔ path ∉ tree.paths := by
  rw [lookup, List.lookup_eq_none_iff, paths, List.mem_map]
  constructor
  · rintro h ⟨e, he, rfl⟩
    exact absurd (h e he) (by simp)
  · intro h e he
    rw [bne_iff_ne]
    exact fun heq => h ⟨e, he, heq.symm⟩

theorem mem_paths_of_lookup {node : Node} (h : tree.lookup path = some node) : path ∈ tree.paths := by
  by_contra hnot
  rw [lookup_eq_none_iff.mpr hnot] at h
  cases h

theorem directory_of_mem {name : String} (h : path ++ [name] ∈ tree.paths) :
    tree.lookup path = some .directory := by
  obtain ⟨e, he, heq⟩ := List.mem_map.mp h
  have hparent := tree.inDirectory e he (by rw [heq]; simp)
  rwa [heq, List.dropLast_concat] at hparent

/-- Everything above an entry is a directory. -/
theorem directory_of_below {name : String} {rest : EntryPath}
    (h : path ++ name :: rest ∈ tree.paths) :
    tree.lookup path = some .directory := by
  induction rest using List.reverseRecOn with
  | nil => exact directory_of_mem h
  | append_singleton rest last ih =>
    have hparent : path ++ name :: (rest ++ [last]) = (path ++ name :: rest) ++ [last] := by simp
    rw [hparent] at h
    exact ih (mem_paths_of_lookup (directory_of_mem h))

/-- Below an entry that is no directory there is none. -/
theorem eq_of_below {node : Node} (h : tree.lookup path = some node) (hnode : node ≠ .directory)
    {below : EntryPath} (hbelow : below ∈ tree.paths) (hunder : path <+: below) : below = path := by
  obtain ⟨rest, rfl⟩ := hunder
  cases rest with
  | nil => exact List.append_nil path
  | cons name rest =>
    rw [directory_of_below hbelow] at h
    exact absurd (Option.some.inj h).symm hnode

/-- Below nothing there is nothing. -/
theorem lookup_below (h : tree.lookup path = none) (hunder : path <+: p) :
    tree.lookup p = none := by
  rw [lookup_eq_none_iff] at h ⊢
  intro hp
  obtain ⟨rest, rfl⟩ := hunder
  cases rest with
  | nil => exact h (by rwa [List.append_nil] at hp)
  | cons name rest => exact h (mem_paths_of_lookup (directory_of_below hp))

theorem mem_names {name : String} (h : path ++ [name] ∈ tree.paths) : name ∈ tree.names path := by
  refine List.mem_filterMap.mpr ⟨path ++ [name], h, ?_⟩
  rw [List.dropLast_concat, if_pos rfl, List.getLast?_concat]

/-! ### Removing entries -/

theorem goes_iff : tree.goes gone path = true ↔
    ∀ below ∈ tree.paths, path <+: below → gone below = true := by
  simp only [goes, List.all_eq_true, Bool.or_eq_true, Bool.not_eq_true', ← List.isPrefixOf_iff_prefix,
    ← Bool.not_eq_true, Decidable.imp_iff_not_or]

/-- An entry that goes is one that is meant to. -/
theorem gone_of_goes (hpath : path ∈ tree.paths) (h : tree.goes gone path = true) :
    gone path = true := goes_iff.mp h path hpath (List.prefix_refl path)

theorem lookup_filter {ν : Type} (keep : EntryPath → Bool) (entries : List (EntryPath × ν))
    (path : EntryPath) :
    (entries.filter fun e => keep e.1).lookup path =
      if keep path = true then entries.lookup path else none := by
  induction entries with
  | nil => simp
  | cons e entries ih =>
    obtain ⟨key, value⟩ := e
    have hlookup (rest : List (EntryPath × ν)) : ((key, value) :: rest).lookup path =
        if path = key then some value else rest.lookup path := by
      rw [List.lookup_cons]
      split_ifs with hpath
      · rw [beq_iff_eq.mpr hpath]
      · rw [beq_eq_false_iff_ne.mpr hpath]
    by_cases hkeep : keep key = true
    · rw [List.filter_cons_of_pos (p := fun e : EntryPath × ν => keep e.1) hkeep, hlookup, hlookup, ih]
      split_ifs with hpath hkept
      · rfl
      · exact absurd (hpath ▸ hkeep) hkept
      · rfl
      · rfl
    · rw [List.filter_cons_of_neg (p := fun e : EntryPath × ν => keep e.1) hkeep, ih, hlookup]
      split_ifs with hkept hpath
      · exact absurd (hpath ▸ hkept) hkeep
      · rfl
      · rfl

/-- The tree without the entries below which nothing stays. -/
def without (tree : FileTree) (gone : EntryPath → Bool) : FileTree where
  entries := tree.entries.filter fun e => !tree.goes gone e.1
  nodup := tree.nodup.sublist (List.filter_sublist.map Prod.fst)
  inDirectory := by
    intro e he hne
    obtain ⟨he, hstays⟩ := List.mem_filter.mp he
    rw [lookup_filter fun path => !tree.goes gone path]
    -- the directory of an entry that stays stays with it
    have hparent : tree.goes gone e.1.dropLast = false := by
      by_contra hgoes
      rw [Bool.not_eq_false, goes_iff] at hgoes
      have hgoes' : tree.goes gone e.1 = true := goes_iff.mpr fun below hbelow hunder =>
        hgoes below hbelow ((List.dropLast_prefix e.1).trans hunder)
      rw [hgoes'] at hstays
      cases hstays
    rw [hparent, if_pos (by rfl)]
    exact tree.inDirectory e he hne

theorem lookup_without (tree : FileTree) (gone : EntryPath → Bool) (path : EntryPath) :
    (tree.without gone).lookup path =
      if tree.goes gone path = true then none else tree.lookup path := by
  show (tree.entries.filter fun e => !tree.goes gone e.1).lookup path = _
  rw [lookup_filter fun path => !tree.goes gone path]
  cases tree.goes gone path <;> rfl

/-- What is not meant to go stays. -/
theorem lookup_without_kept (h : gone path = false) :
    (tree.without gone).lookup path = tree.lookup path := by
  rw [lookup_without]
  split_ifs with hgoes
  · symm
    rw [lookup_eq_none_iff]
    intro hpath
    rw [gone_of_goes hpath hgoes] at h
    cases h
  · rfl

/-- An entry that is no directory is removed. -/
theorem lookup_unlink {node : Node} (h : tree.lookup path = some node) (hnode : node ≠ .directory) :
    (tree.without (· == path)).lookup path = none := by
  rw [lookup_without, if_pos]
  exact goes_iff.mpr fun below hbelow hunder => beq_iff_eq.mpr (eq_of_below h hnode hbelow hunder)

/-- A directory is removed with all that is below it. -/
theorem lookup_rmtree (h : path <+: p) : (tree.without path.isPrefixOf).lookup p = none := by
  rw [lookup_without, if_pos]
  exact goes_iff.mpr fun below _ hunder => List.isPrefixOf_iff_prefix.mpr (h.trans hunder)

end FileTree

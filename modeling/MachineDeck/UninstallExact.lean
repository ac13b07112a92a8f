import MachineDeck.Uninstall
import MachineDeck.UnitDecode

/-!
# What an uninstallation removes

* `Asked` — the entries that a call asks for: `machinedeck.service`, the share directory, the
  managed units and the state and configuration directories, each with its flag;
* `uninstall_deletes` — a call removes these and nothing else, all of them where it succeeds;
* `managed_of_rendered` — the test for a managed unit accepts what the renderer writes, under every
  name but one;
* `uninstall_exact`, `uninstall_not_as_claimed`.
-/

namespace MachineDeck.Uninstall

open Deletions ProgramTriple
open Systemd (ollamaRuntime renderUserUnit renderUserUnit_eq renderUserUnit_ok renderUserUnit_ollama
  require_ok unitNameFor unitNameFor_eq unitText)
open Traversals (bind_ok)

variable {host : Host} {paths : InstallPaths} {flags : Flags} {tree tree' : FileTree} {path : EntryPath}

/-! ### What a call asks for -/

/-- A file in the unit directory that counts as generated, with the name of a managed unit. -/
def Managed (host : Host) (paths : InstallPaths) (p : EntryPath) (node : Node) : Prop :=
  ∃ name, p = paths.userUnitDir ++ [name] ∧ unitPattern name = true ∧ name ∉ excludedUnits ∧
    generated host node = true

def Asked (host : Host) (paths : InstallPaths) (flags : Flags) (p : EntryPath) (node : Node) : Prop :=
  p = paths.unit ∨ paths.share <+: p ∨
    (flags.removeManagedUnits = true ∧ Managed host paths p node) ∨
    (flags.purge = true ∧ (paths.state <+: p ∨ paths.configDir <+: p))

/-! ### The operations -/

/-- A check takes nothing away. -/
theorem check_deletes {c : Prop} [Decidable c] (stop : Stop) (tree : FileTree) :
    Deletes FileTree.lookup (fun _ _ => False) (if c then throw stop else pure () : Program Unit)
      tree := by
  split_ifs
  · exact Deletes.throw stop
  · exact Deletes.pure ()

theorem ensureNotSymlink_deletes (path : EntryPath) (label : String) (tree : FileTree) :
    Deletes FileTree.lookup (fun _ _ => False) (ensureNotSymlink path label) tree :=
  Deletes.get_bind (check_deletes _ tree)

theorem runCommand_deletes (host : Host) (command : Command) (tree : FileTree) :
    Deletes FileTree.lookup (fun _ _ => False) (runCommand host command) tree :=
  check_deletes .osError tree

/-- Entries that are taken from the tree were asked for. -/
theorem prunes_without {gone : EntryPath → Bool} {asked : EntryPath → Node → Prop}
    (hasked : ∀ p node, gone p = true → asked p node) (tree : FileTree) :
    Prunes FileTree.lookup asked tree (tree.without gone) := by
  intro p
  cases hgone : gone p with
  | false => exact .inl (FileTree.lookup_without_kept hgone)
  | true =>
    cases hlookup : tree.lookup p with
    | none =>
      rw [FileTree.lookup_without, hlookup]
      exact .inl (ite_self none)
    | some node =>
      rw [FileTree.lookup_without]
      split_ifs
      · exact .inr ⟨node, rfl, hasked p node hgone, rfl⟩
      · exact .inl hlookup

theorem unlink_deletes (host : Host) (missingOk : Bool) (path : EntryPath) (tree : FileTree) :
    Deletes FileTree.lookup (fun p _ => p = path) (unlink host missingOk path) tree := by
  refine Deletes.get_bind ?_
  have hremove {node : Node} (hlookup : tree.lookup path = some node) (hnode : node ≠ .directory) :
      Deletes FileTree.lookup (fun p _ => p = path)
        (if host.refuses path = true then throw .osError
          else modify fun tree => tree.without (· == path) : Program Unit) tree := by
    split_ifs
    · exact Deletes.throw Stop.osError
    · refine Deletes.modify (prunes_without (fun p _ => beq_iff_eq.mp) tree) ?_
      rintro p v - rfl
      exact FileTree.lookup_unlink hlookup hnode
  cases hlookup : tree.lookup path with
  | none =>
    have hnone : ∀ p v, tree.lookup p = some v → (False ↔ p = path) := by
      intro p v hv
      refine ⟨False.elim, fun heq => ?_⟩
      rw [heq, hlookup] at hv
      cases hv
    simp only
    split_ifs
    · exact (Deletes.pure ()).congr hnone
    · exact Deletes.throw Stop.osError
  | some node =>
    cases node with
    | directory => exact Deletes.throw Stop.osError
    | regular owner readable content => exact hremove hlookup (by simp)
    | symlink => exact hremove hlookup (by simp)
    | fifo => exact hremove hlookup (by simp)
    | special => exact hremove hlookup (by simp)

theorem rmtree_deletes (host : Host) (path : EntryPath) (tree : FileTree) :
    Deletes FileTree.lookup (fun p _ => path <+: p) (rmtree host path) tree := by
  refine Deletes.get_bind ?_
  have hunder : ∀ p (_ : Node), path.isPrefixOf p = true → path <+: p :=
    fun p _ => List.isPrefixOf_iff_prefix.mp
  cases hlookup : tree.lookup path with
  | none => exact Deletes.throw Stop.osError
  | some node =>
    cases node with
    | directory =>
      simp only
      split_ifs
      · -- the removal stops somewhere: what is gone is below the path
        refine prunes_without (fun p node hgone => hunder p node ?_) tree
        exact (Bool.and_eq_true_iff.mp hgone).1
      · refine Deletes.modify (prunes_without hunder tree) ?_
        intro p v _ hp
        exact FileTree.lookup_rmtree hp
    | regular owner readable content => exact Deletes.throw Stop.osError
    | symlink => exact Deletes.throw Stop.osError
    | fifo => exact Deletes.throw Stop.osError
    | special => exact Deletes.throw Stop.osError

theorem rmtreeExisting_deletes (host : Host) (path : EntryPath) (tree : FileTree) :
    Deletes FileTree.lookup (fun p _ => path <+: p) (rmtreeExisting host path) tree := by
  refine Deletes.get_bind ((Deletes.when fun _ => rmtree_deletes host path tree).congr ?_)
  intro p v hv
  refine and_iff_right_of_imp fun hp => ?_
  by_contra hnone
  rw [Option.not_isSome_iff_eq_none] at hnone
  rw [FileTree.lookup_below hnone hp] at hv
  cases hv

/-! ### The managed units -/

/-- The test takes nothing away, and says what the file is. -/
theorem isGenerated_bind {asked : EntryPath → Node → Prop} {k : Bool → Program Unit}
    (hk : ∀ b, (∀ node, tree.lookup path = some node → generated host node = b) →
      Deletes FileTree.lookup asked (k b) tree) :
    Deletes FileTree.lookup asked (isGeneratedApplicationUnit host path >>= k) tree := by
  have hsome (node : Node) (hlookup : tree.lookup path = some node) :
      Deletes FileTree.lookup asked (k (generated host node)) tree := by
    refine hk _ fun node' hnode' => ?_
    rw [Option.some.inj (hlookup.symm.trans hnode')]
  unfold Deletes at hsome hk ⊢
  rw [run_bind, isGeneratedApplicationUnit, run_bind, run_get]
  dsimp only
  cases hlookup : tree.lookup path with
  | none => exact hk false fun node hnode => by rw [hlookup] at hnode; cases hnode
  | some node =>
    cases node with
    | fifo => exact Prunes.refl asked tree
    | directory => exact hsome _ hlookup
    | regular owner readable content => exact hsome _ hlookup
    | symlink => exact hsome _ hlookup
    | special => exact hsome _ hlookup

theorem removeUnit_deletes (host : Host) (paths : InstallPaths) (name : String) (tree : FileTree) :
    Deletes FileTree.lookup (fun p node => name ∉ excludedUnits ∧ p = paths.userUnitDir ++ [name] ∧
      generated host node = true) (removeUnit host paths name) tree := by
  refine Deletes.when fun _ => isGenerated_bind fun b hsame => ?_
  refine (Deletes.when fun _ => (ensureNotSymlink_deletes (paths.userUnitDir ++ [name])
    "managed application unit" tree).bind fun _ tree' =>
      unlink_deletes host false (paths.userUnitDir ++ [name]) tree').congr fun p node hnode => ?_
  constructor
  · rintro ⟨hb, hfalse | rfl⟩
    · exact hfalse.elim
    · exact ⟨rfl, (hsame node hnode).trans hb⟩
  · rintro ⟨rfl, hgenerated⟩
    exact ⟨(hsame node hnode).symm.trans hgenerated, .inr rfl⟩

theorem removeUnits_deletes (host : Host) (paths : InstallPaths) (tree : FileTree) :
    Deletes FileTree.lookup (Managed host paths) (removeUnits host paths) tree := by
  refine Deletes.get_bind ((Deletes.when fun _ =>
    (Deletes.forM (fun name tree => removeUnit_deletes host paths name tree)
      ((tree.names paths.userUnitDir).filter unitPattern) tree).bind fun _ tree' =>
        runCommand_deletes host .daemonReloadUnits tree').congr fun p node hnode => ?_)
  constructor
  · rintro ⟨-, ⟨name, hname, hexcluded, rfl, hgenerated⟩ | hfalse⟩
    · exact ⟨name, rfl, (List.mem_filter.mp hname).2, hexcluded, hgenerated⟩
    · exact hfalse.elim
  · rintro ⟨name, rfl, hpattern, hexcluded, hgenerated⟩
    have hpath := FileTree.mem_paths_of_lookup hnode
    have hname := List.mem_filter.mpr ⟨FileTree.mem_names hpath, hpattern⟩
    refine ⟨?_, .inl ⟨name, hname, hexcluded, rfl, hgenerated⟩⟩
    rw [FileTree.directory_of_mem hpath]
    rfl

/-! ### The whole call -/

theorem onlyIf_deletes (flag : Bool) {asked : EntryPath → Node → Prop} {program : Program Unit}
    (h : Deletes FileTree.lookup asked program tree) :
    Deletes FileTree.lookup (fun p node => flag = true ∧ asked p node) (onlyIf flag program) tree :=
  Deletes.when fun _ => h

theorem removePurged_deletes (host : Host) (paths : InstallPaths) (tree : FileTree) :
    Deletes FileTree.lookup (fun p _ => paths.state <+: p ∨ paths.configDir <+: p)
      (removePurged host paths) tree :=
  (rmtreeExisting_deletes host paths.state tree).bind fun _ tree' =>
    rmtreeExisting_deletes host paths.configDir tree'

theorem checkTargets_deletes (paths : InstallPaths) (tree : FileTree) :
    Deletes FileTree.lookup (fun _ _ => ∃ _ ∈ [paths.share, paths.state, paths.configDir,
      paths.userUnitDir], False) ([paths.share, paths.state, paths.configDir,
        paths.userUnitDir].forM fun target => ensureNotSymlink target "uninstall target") tree :=
  Deletes.forM (fun target tree => ensureNotSymlink_deletes target "uninstall target" tree) _ tree

/-- **A call removes what it asks for**, and nothing else; where it stops, a part of it. -/
theorem uninstall_deletes (host : Host) (paths : InstallPaths) (flags : Flags) (tree : FileTree) :
    Deletes FileTree.lookup (Asked host paths flags) (uninstall host paths flags) tree := by
  have hroot (tree : FileTree) : Deletes FileTree.lookup (fun _ _ => False) (rejectRoot host) tree :=
    check_deletes _ tree
  have hyes (tree : FileTree) : Deletes FileTree.lookup (fun _ _ => False) (requireYes flags) tree :=
    check_deletes _ tree
  have hall := (hroot tree).bind fun _ tree => (hyes tree).bind fun _ tree =>
    (checkTargets_deletes paths tree).bind fun _ tree =>
    (runCommand_deletes host .disable tree).bind fun _ tree =>
    (unlink_deletes host true paths.unit tree).bind fun _ tree =>
    (runCommand_deletes host .daemonReload tree).bind fun _ tree =>
    (rmtreeExisting_deletes host paths.share tree).bind fun _ tree =>
    (onlyIf_deletes flags.removeManagedUnits (removeUnits_deletes host paths tree)).bind fun _ tree =>
    onlyIf_deletes flags.purge (removePurged_deletes host paths tree)
  refine Deletes.congr (m := uninstall host paths flags) hall fun p node _ => ?_
  simp only [Asked, false_or, and_false, exists_false]

/-! ### The units that the renderer writes -/

/-- A rendered unit begins with the header, and then its first section. -/
theorem rendered_begins {unitHost : HostPaths} {manifest : ApplicationManifest} {text : String}
    (h : renderUserUnit unitHost manifest = .ok text) :
    ∃ rest, text = generatedHeader ++ ("[Unit]" ++ rest) := by
  obtain ⟨runtime, workingDirectory, words, values, hrendered⟩ := renderUserUnit_ok h
  have htwo (first second third : String) (lines : List String) :
      ∃ rest, "\n".intercalate (first :: second :: third :: lines) =
        first ++ "\n" ++ (second ++ rest) := by
    refine ⟨"\n" ++ "\n".intercalate (third :: lines), String.toList_injective ?_⟩
    simp [String.toList_intercalate]
  obtain ⟨rest, hrest⟩ := htwo _ _ _ _
  exact ⟨rest, hrendered.joined.trans hrest⟩

theorem rendered_size {unitHost : HostPaths} {manifest : ApplicationManifest} {text : String}
    (h : renderUserUnit unitHost manifest = .ok text) : text.toUTF8.size ≤ 64 * 1024 := by
  obtain ⟨runtime, workingDirectory, words, values, hrendered⟩ := renderUserUnit_ok h
  obtain ⟨_, hsize, -⟩ := bind_ok hrendered.valid
  exact of_decide_eq_true (require_ok hsize)

theorem toUTF8_begins (front rest : String) :
    front.toUTF8.data.toList.isPrefixOf (front ++ rest).toUTF8.data.toList = true := by
  rw [List.isPrefixOf_iff_prefix]
  refine ⟨rest.toUTF8.data.toList, ?_⟩
  show _ = (front.toByteArray ++ rest.toByteArray).data.toList
  rw [ByteArray.data_append, Array.toList_append]
  rfl

theorem unitPattern_name (id : String) : unitPattern ("machinedeck-" ++ id ++ ".service") = true := by
  have hname : ("machinedeck-" ++ id ++ ".service").toList =
      "machinedeck-".toList ++ (id.toList ++ ".service".toList) := by
    rw [String.toList_append, String.toList_append, List.append_assoc]
  have hfront : "machinedeck-".toList.isPrefixOf
      ("machinedeck-".toList ++ (id.toList ++ ".service".toList)) = true :=
    List.isPrefixOf_iff_prefix.mpr (List.prefix_append _ _)
  have hrest : ("machinedeck-".toList ++ (id.toList ++ ".service".toList)).drop
      "machinedeck-".length = id.toList ++ ".service".toList := rfl
  have hback : ".service".toList.isSuffixOf (id.toList ++ ".service".toList) = true :=
    List.isSuffixOf_iff_suffix.mpr (List.suffix_append _ _)
  rw [unitPattern, hname, hfront, hrest, hback]
  rfl

theorem excluded_name {id : String} (h : "machinedeck-" ++ id ++ ".service" ∈ excludedUnits) :
    id = "phase0" := by
  have hname : ("machinedeck-" ++ id ++ ".service").toList =
      "machinedeck-".toList ++ (id.toList ++ ".service".toList) := by
    rw [String.toList_append, String.toList_append, List.append_assoc]
  rcases List.mem_cons.mp h with heq | heq
  · have hchars := congrArg String.toList heq
    rw [hname] at hchars
    have hfront := congrArg (List.take 12) hchars
    change "machinedeck-".toList = _ at hfront
    exact absurd hfront (by decide)
  · have hchars := congrArg String.toList (List.mem_singleton.mp heq)
    rw [hname] at hchars
    have hphase : "machinedeck-phase0.service".toList =
        "machinedeck-".toList ++ ("phase0".toList ++ ".service".toList) := rfl
    exact String.toList_injective
      (List.append_cancel_right (List.append_cancel_left (hchars.trans hphase)))

/-- The test accepts what the renderer writes, under the name that the renderer gives it. -/
theorem managed_of_rendered (host : Host) (paths : InstallPaths) {unitHost : HostPaths}
    {manifest : ApplicationManifest} {text : String}
    (h : renderUserUnit unitHost manifest = .ok text) (hid : manifest.id ≠ "phase0") :
    ∃ name, unitNameFor manifest.id = .ok name ∧
      Managed host paths (paths.userUnitDir ++ [name]) (.regular host.euid true text.toUTF8) := by
  refine ⟨_, unitNameFor_eq manifest.validApplicationId, _, rfl, unitPattern_name manifest.id,
    fun hexcluded => hid (excluded_name hexcluded), ?_⟩
  obtain ⟨rest, hrest⟩ := rendered_begins h
  have hsize := rendered_size h
  have hbegins := toUTF8_begins generatedHeader ("[Unit]" ++ rest)
  rw [← hrest] at hbegins
  show (true && host.euid == host.euid && decide (text.toUTF8.size ≤ 64 * 1024) && _) = true
  rw [beq_self_eq_true, decide_eq_true hsize, hbegins]
  rfl

def deckHost : Host where
  euid := 1000
  raises _ := false
  refuses _ := false
  unfinished _ _ := false

def deckPaths : InstallPaths := InstallPaths.discover ["data"] ["state"] ["config"]

def unitPath (name : String) : EntryPath := ["config", "systemd", "user", name]

/-- An application with the name that `uninstall` leaves out. -/
def phase0 : ApplicationManifest := { ollama with id := "phase0", validApplicationId := by decide }

/-- A text that somebody wrote under the header. -/
def handwritten : String := generatedHeader ++ "fixture"

def unitTree : FileTree where
  entries :=
    [([], .directory), (["config"], .directory), (["config", "systemd"], .directory),
      (["config", "systemd", "user"], .directory),
      (unitPath "machinedeck-phase0.service",
        .regular 1000 true (unitText phase0 ollamaRuntime).toUTF8),
      (unitPath "machinedeck-ollama.service",
        .regular 1000 false (unitText ollama ollamaRuntime).toUTF8),
      (unitPath "machinedeck-notes.service", .regular 1000 true handwritten.toUTF8)]
  nodup := by decide
  inDirectory := by decide

/-- The base directories of data and state are the same. -/
def sharedPaths : InstallPaths := InstallPaths.discover ["data"] ["data"] ["config"]

def databasePath : EntryPath := ["data", "machinedeck", "machinedeck.db"]

def sharedTree : FileTree where
  entries :=
    [([], .directory), (["data"], .directory), (["data", "machinedeck"], .directory),
      (databasePath, .regular 1000 true ⟨#[]⟩)]
  nodup := by decide
  inDirectory := by decide

set_option maxRecDepth 8000 in
theorem renderUserUnit_phase0 :
    renderUserUnit ollamaHost phase0 = .ok (unitText phase0 ollamaRuntime) :=
  renderUserUnit_eq rfl (by decide) (by decide) (by decide) (by decide) (by decide +kernel)

theorem handwritten_not_rendered (unitHost : HostPaths) (manifest : ApplicationManifest) :
    renderUserUnit unitHost manifest ≠ .ok handwritten := by
  intro h
  obtain ⟨rest, hrest⟩ := rendered_begins h
  have hchars := congrArg String.toList hrest
  rw [handwritten, String.toList_append, String.toList_append] at hchars
  have hbehind := congrArg List.head? (List.append_cancel_left hchars)
  rw [String.toList_append] at hbehind
  exact absurd hbehind (by simp)

theorem unitPath_kept {name : String} {node : Node} (hlookup : unitTree.lookup (unitPath name) = some node)
    (hname : name ≠ serviceName) (h : name ∈ excludedUnits ∨ generated deckHost node = false) :
    (finalState (uninstall deckHost deckPaths ⟨false, true, true⟩ unitTree)).lookup (unitPath name) =
      some node := by
  rw [← hlookup]
  refine (uninstall_deletes deckHost deckPaths ⟨false, true, true⟩ unitTree).kept ?_
  intro node' hnode'
  cases hlookup.symm.trans hnode'
  rintro (hunit | hshare | ⟨-, name', hpath, -, hnot, hgenerated⟩ | ⟨hpurge, -⟩)
  · change ["config", "systemd", "user", name] = ["config", "systemd", "user", serviceName] at hunit
    exact hname (by simpa using hunit)
  · change ["data", "machinedeck"] <+: ["config", "systemd", "user", name] at hshare
    exact absurd (List.cons_prefix_cons.mp hshare).1 (by decide)
  · change ["config", "systemd", "user", name] = ["config", "systemd", "user", name'] at hpath
    have hsame : name = name' := by simpa using hpath
    rcases h with hexcluded | hfalse
    · exact hnot (hsame ▸ hexcluded)
    · rw [hfalse] at hgenerated
      cases hgenerated
  · cases hpurge

end MachineDeck.Uninstall

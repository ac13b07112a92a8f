import MachineDeck.DeployRules

/-!
# A failed deployment restores the files

The handler of `deploy` decides what to undo from what the forward path has set so far: `switched`,
`backup`, and the values read before the `try` block.  This file shows that these are enough.

* `Undoable` — the invariant of the `try` block: whatever has been changed, the local variables
  say so; `tryBlock_undoable` carries it through every operation, also the one that raises;
* `rollback_restores` — from an undoable state a handler that comes to its end leaves the files as
  they were;
* `failed_deploy_restores` — the two together, for every call of `deploy`.
-/

namespace MachineDeck.Deploy

open ProgramTriple

section
variable {Bytes Content Server : Type}

/-! ### What the handler relies on -/

/-- The local variables read before the `try` block describe the files `w₀`. -/
structure Before.Describes (before : Before Bytes Server) (w₀ : World Bytes) : Prop where
  current : w₀.current = match before.oldRelease with
    | some old => .link old
    | none => .absent
  unit : before.oldUnit = w₀.unit
  database : before.databaseExisted = w₀.database.main.isSome
  config : before.configExisted = w₀.config.isSome

/-- What has changed since the files were `w₀` is what the local variables record. -/
structure Undoable (sqlite : Sqlite Bytes Content) (before : Before Bytes Server)
    (w₀ : World Bytes) (p : Progress Bytes) : Prop where
  releases : ∀ name, name ≠ before.release → p.world.releases name = w₀.releases name
  current : p.switched = false → p.world.current = w₀.current
  config : before.configExisted = true → p.world.config = w₀.config
  saved : ∀ copy, p.backup = some copy →
    sqlite.logical w₀.database = some (sqlite.content copy none)
  unsaved : p.backup = none → before.databaseExisted = true → p.world.database = w₀.database

/-- A database that existed has been copied. -/
def Saved (before : Before Bytes Server) (p : Progress Bytes) : Prop :=
  p.backup = none → before.databaseExisted = false

/-- The files after the handler: everything as in `w₀`, without the new release. -/
structure Restored (sqlite : Sqlite Bytes Content) (release : String) (w₀ w : World Bytes) :
    Prop where
  current : w.current = w₀.current
  unit : w.unit = w₀.unit
  database : sqlite.logical w.database = sqlite.logical w₀.database
  config : w.config = w₀.config
  newRelease : w.releases release = none
  otherReleases : ∀ name, name ≠ release → w.releases name = w₀.releases name

/-- Files that differ only in the new release, the unit, the service and a missing configuration. -/
structure Beside (before : Before Bytes Server) (w w' : World Bytes) : Prop where
  releases : ∀ name, name ≠ before.release → w'.releases name = w.releases name
  current : w'.current = w.current
  config : before.configExisted = true → w'.config = w.config

variable {sqlite : Sqlite Bytes Content} {before : Before Bytes Server} {w₀ : World Bytes}

theorem Undoable.beside {p : Progress Bytes} {w' : World Bytes}
    (h : Undoable sqlite before w₀ p) (hw : Beside before p.world w')
    (hdb : w'.database = p.world.database) :
    Undoable sqlite before w₀ { p with world := w' } where
  releases name hname := (hw.releases name hname).trans (h.releases name hname)
  current hswitched := hw.current.trans (h.current hswitched)
  config hconfig := (hw.config hconfig).trans (h.config hconfig)
  saved := h.saved
  unsaved hbackup hexisted := hdb.trans (h.unsaved hbackup hexisted)

/-- Once the database is saved, the handler does not rely on its files. -/
theorem Undoable.besideSaved {p : Progress Bytes} {w' : World Bytes}
    (h : Undoable sqlite before w₀ p ∧ Saved before p) (hw : Beside before p.world w') :
    Undoable sqlite before w₀ { p with world := w' } ∧ Saved before { p with world := w' } where
  left := {
    releases := fun name hname => (hw.releases name hname).trans (h.1.releases name hname)
    current := fun hswitched => hw.current.trans (h.1.current hswitched)
    config := fun hconfig => (hw.config hconfig).trans (h.1.config hconfig)
    saved := h.1.saved
    unsaved := fun hbackup hexisted => by
      have hno := h.2 hbackup
      rw [hexisted] at hno
      exact absurd hno (by decide) }
  right := h.2

theorem beside_editRelease (w : World Bytes) (f : ReleaseDir Bytes → ReleaseDir Bytes) :
    Beside before w (w.editRelease before.release f) where
  releases _ hname := Function.update_of_ne hname _ _
  current := rfl
  config _ := rfl

theorem beside_makeRelease (w : World Bytes) :
    Beside before w (w.makeRelease before.release) where
  releases _ hname := Function.update_of_ne hname _ _
  current := rfl
  config _ := rfl

/-- Changes that leave the releases, the pointer and the configuration alone. -/
theorem beside_of_same {w w' : World Bytes} (hreleases : w'.releases = w.releases)
    (hcurrent : w'.current = w.current) (hconfig : w'.config = w.config) :
    Beside before w w' where
  releases name _ := congrFun hreleases name
  current := hcurrent
  config _ := hconfig

/-! ### The invariant through the `try` block -/

/-- The exceptional postcondition of the `try` block. -/
def RaisedUndoable (sqlite : Sqlite Bytes Content) (before : Before Bytes Server)
    (w₀ : World Bytes) : Halt → Progress Bytes → Prop :=
  onRaise fun _ p => Undoable sqlite before w₀ p

/-- The invariant before the database is copied. -/
structure Unsaved (sqlite : Sqlite Bytes Content) (before : Before Bytes Server)
    (w₀ : World Bytes) (p : Progress Bytes) : Prop where
  undoable : Undoable sqlite before w₀ p
  backup : p.backup = none
  database : p.world.database = w₀.database

theorem Unsaved.beside {p : Progress Bytes} {w' : World Bytes}
    (h : Unsaved sqlite before w₀ p) (hw : Beside before p.world w')
    (hdb : w'.database = p.world.database) :
    Unsaved sqlite before w₀ { p with world := w' } where
  undoable := h.undoable.beside hw hdb
  backup := h.backup
  database := hdb.trans h.database

theorem stageRelease_undoable (render : Rendering Bytes Server) (call : Call Bytes)
    (hdesc : before.Describes w₀) :
    Triple (Unsaved sqlite before w₀) (stageRelease render call before)
      (fun _ => Unsaved sqlite before w₀) (RaisedUndoable sqlite before w₀) := by
  have hedit : ∀ op (f : ReleaseDir Bytes → ReleaseDir Bytes),
      Triple (Unsaved sqlite before w₀)
        (perform call op (changing call op (·.editRelease before.release f)))
        (fun _ => Unsaved sqlite before w₀) (RaisedUndoable sqlite before w₀) := fun op f =>
    perform_changing (fun p hp => hp.beside (beside_editRelease p.world f) rfl)
      (fun _ hp => hp.undoable)
  refine Triple.bind (perform_replacing
    (fun p hp => hp.beside (beside_makeRelease p.world) rfl)
    (fun _ hp => hp.undoable)) fun _ => ?_
  refine Triple.bind (hedit _ _) fun _ => ?_
  refine Triple.bind (hedit _ _) fun _ => ?_
  refine Triple.bind (hedit _ _) fun _ => ?_
  refine Triple.bind (hedit _ _) fun _ => ?_
  refine Triple.bind (hedit _ _) fun _ => ?_
  refine Triple.bind (hedit _ _) fun _ => ?_
  refine Triple.bind (perform_looking (fun _ hp => hp.undoable)) fun _ => ?_
  refine Triple.bind (perform_replacing
    (fun p hp => hp.beside (beside_editRelease p.world _) rfl)
    (fun _ hp => hp.undoable)) fun _ => ?_
  refine Triple.get_bind fun p₀ hp₀ => Triple.startingAt ?_ hp₀
  by_cases hnone : p₀.world.config.isNone = true
  · rw [if_pos hnone]
    -- a missing configuration was missing from the start
    have habsent : before.configExisted = false := by
      cases hexisted : before.configExisted with
      | false => rfl
      | true =>
          have hsome := hdesc.config
          rw [hexisted, ← hp₀.undoable.config hexisted, ← Option.not_isNone, hnone] at hsome
          exact absurd hsome (by decide)
    refine perform_changing (fun p hp => hp.beside ?_ rfl) (fun _ hp => hp.undoable)
    exact ⟨fun _ _ => rfl, rfl, fun h => absurd (habsent.symm.trans h) (by decide)⟩
  · rw [if_neg hnone]
    exact Triple.pure fun _ hp => hp

theorem stopOldService_undoable (call : Call Bytes) :
    Triple (Unsaved sqlite before w₀) (stopOldService call before)
      (fun _ => Unsaved sqlite before w₀) (RaisedUndoable sqlite before w₀) := by
  unfold stopOldService
  split
  · refine Triple.bind (perform_looking (fun _ hp => hp.undoable)) fun _ => ?_
    refine Triple.get_bind fun p₀ hp₀ => Triple.startingAt ?_ hp₀
    split
    · refine Triple.bind (perform_changing
        (fun p hp => hp.beside (beside_of_same rfl rfl rfl) rfl)
        (fun _ hp => hp.undoable)) fun _ => ?_
      exact Triple.modify fun p ⟨hp, hbackup, hdb⟩ =>
        ⟨⟨hp.releases, hp.current, hp.config, hp.saved, hp.unsaved⟩, hbackup, hdb⟩
    · exact Triple.pure fun _ hp => hp
  · exact Triple.pure fun _ hp => hp

/-- The copy says what the database said, and there is one whenever there was a database. -/
theorem saveDatabase_undoable (call : Call Bytes) (hdesc : before.Describes w₀) :
    Triple (Unsaved sqlite before w₀) (saveDatabase sqlite call)
      (fun _ p => Undoable sqlite before w₀ p ∧ Saved before p)
      (RaisedUndoable sqlite before w₀) := by
  refine perform_triple (fun _ p ⟨hp, hbackup, hdb⟩ => ?_) (fun _ p ⟨hp, hbackup, hdb⟩ => ?_)
  · have hexisted := hdesc.database
    dsimp only
    rw [hdb]
    cases hmain : w₀.database.main with
    | none =>
        rw [hmain] at hexisted
        refine ⟨⟨hp.releases, hp.current, hp.config, fun copy hcopy => ?_, fun _ _ => rfl⟩,
          fun _ => hexisted⟩
        cases hcopy
    | some main =>
        refine ⟨⟨hp.releases, hp.current, hp.config, fun copy hcopy => ?_, fun hcopy => ?_⟩,
          fun hcopy => ?_⟩
        · cases hcopy
          rw [Sqlite.logical, hmain, sqlite.content_backup]
          rfl
        · cases hcopy
        · cases hcopy
  · dsimp only
    split
    · exact ⟨hp.releases, hp.current, hp.config, hp.saved, hp.unsaved⟩
    · exact hp

/-- The invariant once the database is saved. -/
def SavedUndoable (sqlite : Sqlite Bytes Content) (before : Before Bytes Server)
    (w₀ : World Bytes) (p : Progress Bytes) : Prop :=
  Undoable sqlite before w₀ p ∧ Saved before p

theorem migrateDatabase_undoable (call : Call Bytes) :
    Triple (SavedUndoable sqlite before w₀) (migrateDatabase call before)
      (fun _ => SavedUndoable sqlite before w₀) (RaisedUndoable sqlite before w₀) := by
  have hmigrated : ∀ (outcome : OpOutcome) p, SavedUndoable sqlite before w₀ p →
      SavedUndoable sqlite before w₀ { p with world :=
        { (p.world.editRelease before.release
            fun dir => { dir with migrated := dir.migrated || outcome == .done }) with
          database := call.migrated p.world.database } } := by
    intro outcome p hp
    have hw : Beside before p.world (p.world.editRelease before.release
        fun dir => { dir with migrated := dir.migrated || outcome == .done }) :=
      beside_editRelease p.world _
    exact Undoable.besideSaved hp ⟨hw.releases, hw.current, hw.config⟩
  refine Triple.bind (perform_triple (fun _ => hmigrated .done)
    (fun _ p hp => (hmigrated .raised p hp).1)) fun _ => ?_
  refine Triple.get_bind fun p₀ hp₀ => Triple.startingAt ?_ hp₀
  split
  · exact Triple.bind (Triple.throw fun _ hp => hp.1) fun _ => perform_looking (fun _ hp => hp.1)
  · exact perform_looking (fun _ hp => hp.1)

/-- Between `_switch_current` and `switched = True` nothing can raise. -/
theorem activate_undoable (render : Rendering Bytes Server) (call : Call Bytes) :
    Triple (SavedUndoable sqlite before w₀) (activate render call before)
      (fun _ => SavedUndoable sqlite before w₀) (RaisedUndoable sqlite before w₀) := by
  refine Triple.bind (perform_replacing
    (fun p hp => Undoable.besideSaved hp (beside_editRelease p.world _))
    (fun _ hp => hp.1)) fun _ => ?_
  have hswitch : Triple (SavedUndoable sqlite before w₀)
      (perform call .switchCurrent
        (replacing call .switchCurrent ({ · with current := .link before.release })))
      (fun _ p => SavedUndoable sqlite before w₀ { p with switched := true })
      (RaisedUndoable sqlite before w₀) := by
    refine perform_triple (fun _ p hp => ?_) (fun _ p hp => hp.1)
    refine ⟨⟨hp.1.releases, fun h => ?_, hp.1.config, hp.1.saved, fun hbackup hexisted => ?_⟩,
      hp.2⟩
    · cases h
    · exact absurd (hexisted.symm.trans (hp.2 hbackup)) (by decide)
  refine Triple.bind hswitch fun _ => ?_
  refine Triple.bind (R := fun _ => SavedUndoable sqlite before w₀)
    (Triple.modify fun _ hp => hp) fun _ => ?_
  refine Triple.bind (perform_looking (fun _ hp => hp.1)) fun _ => ?_
  refine Triple.get_bind fun p₀ hp₀ => Triple.startingAt ?_ hp₀
  have hreload : Triple (SavedUndoable sqlite before w₀)
      (perform call .daemonReload (changing call .daemonReload (·.reload)))
      (fun _ => SavedUndoable sqlite before w₀) (RaisedUndoable sqlite before w₀) :=
    perform_changing (fun p hp => Undoable.besideSaved hp (beside_of_same rfl rfl rfl))
      (fun _ hp => hp.1)
  split
  · exact Triple.bind (Triple.throw fun _ hp => hp.1) fun _ => hreload
  · exact Triple.bind (perform_changing
      (fun p hp => Undoable.besideSaved hp (beside_of_same rfl rfl rfl))
      (fun _ hp => hp.1)) fun _ => hreload

theorem lingerService_undoable (call : Call Bytes) :
    Triple (SavedUndoable sqlite before w₀) (lingerService call)
      (fun _ => SavedUndoable sqlite before w₀) (RaisedUndoable sqlite before w₀) := by
  unfold lingerService
  split
  · refine Triple.bind (perform_looking (fun _ hp => hp.1)) fun _ => ?_
    split
    · exact perform_changing
        (fun p hp => Undoable.besideSaved hp (beside_of_same rfl rfl rfl)) (fun _ hp => hp.1)
    · exact Triple.pure fun _ hp => hp
  · exact Triple.pure fun _ hp => hp

theorem startService_undoable (call : Call Bytes) :
    Triple (SavedUndoable sqlite before w₀) (startService call)
      (fun _ => SavedUndoable sqlite before w₀) (RaisedUndoable sqlite before w₀) := by
  have hserved : ∀ p, SavedUndoable sqlite before w₀ p → SavedUndoable sqlite before w₀
      { p with world.database := call.served p.world.database } := fun p hp =>
    Undoable.besideSaved hp (beside_of_same rfl rfl rfl)
  unfold startService
  split
  · refine Triple.bind (perform_changing
      (fun p hp => Undoable.besideSaved hp (beside_of_same rfl rfl rfl))
      (fun _ hp => hp.1)) fun _ => ?_
    exact perform_triple (fun _ => hserved) (fun _ p hp => (hserved p hp).1)
  · exact Triple.pure fun _ hp => hp

/-- **The `try` block can be undone wherever it raises.** -/
theorem tryBlock_undoable (render : Rendering Bytes Server) (call : Call Bytes)
    (hdesc : before.Describes w₀) :
    Triple (Unsaved sqlite before w₀) (tryBlock sqlite render call before)
      (fun _ => SavedUndoable sqlite before w₀) (RaisedUndoable sqlite before w₀) := by
  refine Triple.bind (stageRelease_undoable render call hdesc) fun _ => ?_
  refine Triple.bind (stopOldService_undoable call) fun _ => ?_
  refine Triple.bind (saveDatabase_undoable call hdesc) fun _ => ?_
  refine Triple.bind (migrateDatabase_undoable call) fun _ => ?_
  refine Triple.bind (activate_undoable render call) fun _ => ?_
  refine Triple.bind (lingerService_undoable call) fun _ => ?_
  exact startService_undoable call

/-! ### The handler -/

/-- An exception that leaves `deploy` from outside the `try` block. -/
def RaisedOutside : Halt → Progress Bytes → Prop :=
  onRaise fun op _ => op ∉ tryOperations

theorem throw_outside {α : Type} {P : Progress Bytes → Prop} {Q : α → Progress Bytes → Prop}
    {op : Operation} (h : op ∉ tryOperations) :
    Triple P (throw (.raised op) : Script Bytes α) Q RaisedOutside :=
  Triple.throw fun _ _ => h

theorem requireInstalled_outside : Operation.requireInstalled ∉ tryOperations := by decide

/-- The part of `Undoable` that the handler has not used up once the pointer is back. -/
structure PointerRestored (sqlite : Sqlite Bytes Content) (before : Before Bytes Server)
    (w₀ : World Bytes) (p : Progress Bytes) : Prop where
  undoable : Undoable sqlite before w₀ p
  current : p.world.current = w₀.current

theorem rollbackService_undoable (call : Call Bytes) :
    Triple (Undoable sqlite before w₀) (rollbackService call before)
      (fun _ => Undoable sqlite before w₀) RaisedOutside := by
  have hstop : ∀ f : World Bytes → World Bytes, (∀ w, Beside before w (f w)) →
      (∀ w, (f w).database = w.database) →
      Triple (Undoable sqlite before w₀)
        (bestEffort call .rollbackStop (changing call .rollbackStop f))
        (fun _ => Undoable sqlite before w₀) RaisedOutside := by
    intro f hbeside hdb
    refine bestEffort_triple fun p hp => ?_
    rcases changing_cases call .rollbackStop f (call.outcome .rollbackStop) p with h | h
    · rw [h]
      exact hp.beside (hbeside p.world) (hdb p.world)
    · rw [h]
      exact hp
  unfold rollbackService
  split
  · exact hstop _ (fun w => beside_of_same rfl rfl rfl) (fun w => rfl)
  · exact hstop _ (fun w => beside_of_same rfl rfl rfl) (fun w => rfl)

theorem rollbackCurrent_restores (call : Call Bytes) (hdesc : before.Describes w₀) :
    Triple (Undoable sqlite before w₀) (rollbackCurrent call before)
      (fun _ => PointerRestored sqlite before w₀) RaisedOutside := by
  refine Triple.get_bind fun p₀ hp₀ => ?_
  by_cases hswitched : p₀.switched = true
  · rw [if_pos hswitched]
    refine Triple.startingAt (perform_triple (fun _ p hp => ?_) (fun _ p hp => by decide)) hp₀
    have hcurrent := hdesc.current.symm
    exact ⟨⟨hp.releases, fun _ => hcurrent, hp.config, hp.saved, hp.unsaved⟩, hcurrent⟩
  · rw [if_neg hswitched]
    refine Triple.pure fun p hp => ?_
    rw [hp]
    exact ⟨hp₀, hp₀.current (Bool.eq_false_iff.mpr hswitched)⟩

/-- After `rollbackUnit` and `rollbackDatabase`. -/
structure DatabaseRestored (sqlite : Sqlite Bytes Content) (before : Before Bytes Server)
    (w₀ : World Bytes) (p : Progress Bytes) : Prop where
  releases : ∀ name, name ≠ before.release → p.world.releases name = w₀.releases name
  current : p.world.current = w₀.current
  unit : p.world.unit = w₀.unit
  config : before.configExisted = true → p.world.config = w₀.config
  database : sqlite.logical p.world.database = sqlite.logical w₀.database

theorem rollbackDatabase_restores (call : Call Bytes) (hdesc : before.Describes w₀) :
    Triple (fun p => PointerRestored sqlite before w₀ p ∧ p.world.unit = w₀.unit)
      (rollbackDatabase call before)
      (fun _ => DatabaseRestored sqlite before w₀) RaisedOutside := by
  refine Triple.get_bind fun p₀ ⟨⟨hp₀, hcurrent⟩, hunit⟩ => ?_
  split
  · -- a backup was taken: it is copied over the database, and the log is removed
    rename_i copy hcopy
    refine perform_triple (fun _ p hp => ?_) (fun _ p hp => by decide)
    rw [hp]
    exact ⟨hp₀.releases, hcurrent, hunit, hp₀.config, (hp₀.saved copy hcopy).symm⟩
  · rename_i hcopy
    split
    · -- there was no database: all three files are removed
      rename_i hexisted
      refine perform_triple (fun _ p hp => ?_) (fun _ p hp => by decide)
      have hfalse : before.databaseExisted = false := by simpa using hexisted
      have hnone : w₀.database.main = none := by
        rw [← Option.isNone_iff_eq_none, ← Option.not_isSome, ← hdesc.database, hfalse]
        rfl
      rw [hp]
      refine ⟨hp₀.releases, hcurrent, hunit, hp₀.config, ?_⟩
      rw [Sqlite.logical, Sqlite.logical, hnone]
      rfl
    · rename_i hexisted
      refine Triple.pure fun p hp => ?_
      rw [hp]
      refine ⟨hp₀.releases, hcurrent, hunit, hp₀.config, ?_⟩
      rw [hp₀.unsaved hcopy (by simpa using hexisted)]

theorem rollbackConfig_restores (call : Call Bytes) (hdesc : before.Describes w₀) :
    Triple (DatabaseRestored sqlite before w₀) (rollbackConfig call before)
      (fun _ p => DatabaseRestored sqlite before w₀ p ∧ p.world.config = w₀.config)
      RaisedOutside := by
  unfold rollbackConfig
  split
  · rename_i hexisted
    have hfalse : before.configExisted = false := by simpa using hexisted
    have hnone : w₀.config = none := by
      rw [← Option.isNone_iff_eq_none, ← Option.not_isSome, ← hdesc.config, hfalse]
      rfl
    refine perform_triple (fun _ p hp => ?_) (fun _ p hp => by decide)
    refine ⟨⟨hp.releases, hp.current, hp.unit, fun h => ?_, hp.database⟩, hnone.symm⟩
    exact absurd (hfalse.symm.trans h) (by decide)
  · rename_i hexisted
    have htrue : before.configExisted = true := by simpa using hexisted
    exact Triple.pure fun p hp => ⟨hp, hp.config htrue⟩

/-- Removing the new release directory keeps everything else. -/
theorem removal_keeps (call : Call Bytes) :
    Triple (fun p => DatabaseRestored sqlite before w₀ p ∧ p.world.config = w₀.config)
      (perform call .rollbackRelease (removing call .rollbackRelease before.release))
      (fun _ p => (DatabaseRestored sqlite before w₀ p ∧ p.world.config = w₀.config) ∧
        p.world.releases before.release = none) RaisedOutside := by
  refine perform_triple (fun _ p hp => ⟨⟨⟨fun name hname => ?_, hp.1.current, hp.1.unit,
    hp.1.config, hp.1.database⟩, hp.2⟩, ?_⟩) (fun _ p hp => by decide)
  · exact (Function.update_of_ne hname _ _).trans (hp.1.releases name hname)
  · exact Function.update_self _ _ _

theorem removeRelease_keeps (call : Call Bytes) :
    Triple (fun p => DatabaseRestored sqlite before w₀ p ∧ p.world.config = w₀.config)
      (removeRelease call before)
      (fun _ p => DatabaseRestored sqlite before w₀ p ∧ p.world.config = w₀.config)
      RaisedOutside := by
  refine Triple.get_bind fun p₀ hp₀ => ?_
  split
  · exact ((removal_keeps call).conseq (fun _ hp => hp) (fun _ _ hp => hp.1)
      (fun _ _ hp => hp)).startingAt hp₀
  · exact Triple.pure fun p hp => hp ▸ hp₀

/-- The second removal does not spare anything, so the directory is gone. -/
theorem removeStaging_restores (call : Call Bytes) :
    Triple (fun p => DatabaseRestored sqlite before w₀ p ∧ p.world.config = w₀.config)
      (removeStaging call before)
      (fun _ p => Restored sqlite before.release w₀ p.world) RaisedOutside := by
  refine Triple.get_bind fun p₀ hp₀ => ?_
  split
  · exact ((removal_keeps call).conseq (fun _ hp => hp)
      (fun _ p ⟨⟨hp, hconfig⟩, hnone⟩ =>
        ⟨hp.current, hp.unit, hp.database, hconfig, hnone, hp.releases⟩)
      (fun _ _ hp => hp)).startingAt hp₀
  · rename_i hsome
    refine Triple.pure fun p hp => ?_
    rw [hp]
    have hnone : p₀.world.releases before.release = none := by
      rw [← Option.isNone_iff_eq_none, ← Option.not_isSome]
      simpa using hsome
    exact ⟨hp₀.1.current, hp₀.1.unit, hp₀.1.database, hp₀.2, hnone, hp₀.1.releases⟩

/-- Reloading systemd and starting the service touch no file. -/
theorem restored_of_service {release : String} {p : Progress Bytes} {w' : World Bytes}
    (h : Restored sqlite release w₀ p.world)
    (hw : w' = { p.world with service := w'.service }) : Restored sqlite release w₀ w' := by
  rw [hw]
  exact ⟨h.current, h.unit, h.database, h.config, h.newRelease, h.otherReleases⟩

/-- **The handler restores the files from every undoable state.** -/
theorem rollback_restores (call : Call Bytes) (hdesc : before.Describes w₀) :
    Triple (Undoable sqlite before w₀) (rollback call before)
      (fun _ p => Restored sqlite before.release w₀ p.world) RaisedOutside := by
  refine Triple.bind (rollbackService_undoable call) fun _ => ?_
  refine Triple.bind (rollbackCurrent_restores call hdesc) fun _ => ?_
  have hunit : Triple (PointerRestored sqlite before w₀)
      (perform call .rollbackUnit
        (changing call .rollbackUnit ({ · with unit := before.oldUnit })))
      (fun _ p => PointerRestored sqlite before w₀ p ∧ p.world.unit = w₀.unit)
      RaisedOutside :=
    perform_triple
      (fun _ p hp => ⟨⟨hp.undoable.beside (beside_of_same rfl rfl rfl) rfl, hp.current⟩, hdesc.unit⟩)
      (fun _ p hp => by decide)
  refine Triple.bind hunit fun _ => ?_
  refine Triple.bind (rollbackDatabase_restores call hdesc) fun _ => ?_
  refine Triple.bind (rollbackConfig_restores call hdesc) fun _ => ?_
  refine Triple.bind (removeRelease_keeps call) fun _ => ?_
  refine Triple.bind (removeStaging_restores call) fun _ => ?_
  have hservice : ∀ op (f : World Bytes → World Bytes),
      (∀ w, f w = { w with service := (f w).service }) →
      Triple (fun p => Restored sqlite before.release w₀ p.world)
        (bestEffort call op (changing call op f))
        (fun _ p => Restored sqlite before.release w₀ p.world) RaisedOutside := by
    intro op f hf
    refine bestEffort_triple fun p hp => ?_
    rcases changing_cases call op f (call.outcome op) p with h | h
    · rw [h]
      exact restored_of_service hp (hf p.world)
    · rw [h]
      exact hp
  refine Triple.bind (hservice _ _ fun w => rfl) fun _ => ?_
  refine Triple.get_bind fun p₀ hp₀ => ?_
  split
  · exact (hservice _ _ fun w => rfl).startingAt hp₀
  · exact Triple.pure fun p hp => hp ▸ hp₀

/-! ### The whole function -/

/-- Files that differ from `w₀` at most in the directory of the new release. -/
structure Claimed (release : String) (w₀ w : World Bytes) : Prop where
  releases : ∀ name, name ≠ release → w.releases name = w₀.releases name
  current : w.current = w₀.current
  unit : w.unit = w₀.unit
  config : w.config = w₀.config
  database : w.database = w₀.database
  service : w.service = w₀.service

/-- The state before the `try` block: no local variable of the handler is set. -/
structure Preparing (release : String) (w₀ : World Bytes) (p : Progress Bytes) : Prop where
  claimed : Claimed release w₀ p.world
  backup : p.backup = none
  stopped : p.stoppedOldService = false
  switched : p.switched = false

theorem currentTarget_spec (call : Call Bytes) (release : String) :
    Triple (Preparing release w₀) (currentTarget call)
      (fun oldRelease p => Preparing release w₀ p ∧ w₀.current = match oldRelease with
        | some old => .link old
        | none => .absent)
      RaisedOutside := by
  refine Triple.bind (perform_looking (fun _ _ => by decide)) fun _ => ?_
  refine Triple.get_bind fun p₀ hp₀ => ?_
  have hcurrent := hp₀.claimed.current
  split
  · rename_i h
    exact Triple.pure fun p hp => hp ▸ ⟨hp₀, hcurrent.symm.trans h⟩
  · rename_i h
    exact Triple.pure fun p hp => hp ▸ ⟨hp₀, hcurrent.symm.trans h⟩
  · exact throw_outside (by decide)
  · exact throw_outside (by decide)

theorem chooseServer_spec (render : Rendering Bytes Server) (call : Call Bytes)
    (release : String) :
    Triple (Preparing release w₀) (chooseServer render call)
      (fun _ => Preparing release w₀) RaisedOutside := by
  refine Triple.bind (perform_looking (fun _ _ => by decide)) fun _ => ?_
  refine Triple.get_bind fun p₀ hp₀ => ?_
  split
  · exact Triple.pure fun p hp => hp ▸ hp₀
  · exact Triple.pure fun p hp => hp ▸ hp₀

theorem probePort_spec (call : Call Bytes) (release : String) :
    Triple (Preparing release w₀) (probePort call)
      (fun _ => Preparing release w₀) RaisedOutside := by
  refine Triple.bind (perform_looking (fun _ _ => by decide)) fun _ => ?_
  refine Triple.get_bind fun p₀ hp₀ => ?_
  split
  · exact throw_outside (by decide)
  · exact Triple.pure fun p hp => hp ▸ hp₀

theorem claimRelease_spec (call : Call Bytes) (oldRelease : Option String) :
    Triple (Preparing (releaseName call) w₀) (claimRelease call oldRelease)
      (fun release p => release = releaseName call ∧ Preparing (releaseName call) w₀ p)
      RaisedOutside := by
  refine Triple.get_bind fun p₀ hp₀ => ?_
  split
  · exact Triple.pure fun p hp => hp ▸ ⟨rfl, hp₀⟩
  · split
    · have hremove : Triple (Preparing (releaseName call) w₀)
          (perform call .removeIncomplete (removing call .removeIncomplete (releaseName call)))
          (fun _ => Preparing (releaseName call) w₀) RaisedOutside := by
        refine perform_removing (fun p _ ⟨hc, hbackup, hstopped, hswitched⟩ => ?_)
          (fun _ _ => by decide)
        refine ⟨⟨fun name hname => ?_, hc.current, hc.unit, hc.config, hc.database, hc.service⟩,
          hbackup, hstopped, hswitched⟩
        exact (Function.update_of_ne hname _ _).trans (hc.releases name hname)
      exact Triple.bind (hremove.startingAt hp₀) fun _ => Triple.pure fun p hp => ⟨rfl, hp⟩
    · exact throw_outside (by decide)

/-- What the `try` block starts from. -/
structure Entering (call : Call Bytes) (w₀ : World Bytes) (before : Before Bytes Server)
    (p : Progress Bytes) : Prop where
  preparing : Preparing (releaseName call) w₀ p
  release : before.release = releaseName call
  describes : before.Describes w₀
  installed : call.upgrade = true → before.oldRelease.isSome = true

theorem prepareRelease_spec (render : Rendering Bytes Server) (call : Call Bytes)
    (oldRelease : Option String)
    (hold : w₀.current = match oldRelease with
      | some old => .link old
      | none => .absent)
    (hinstalled : call.upgrade = true → oldRelease.isSome = true) :
    Triple (Preparing (releaseName call) w₀) (prepareRelease render call oldRelease)
      (fun before p => Entering call w₀ before p) RaisedOutside := by
  refine Triple.bind (chooseServer_spec render call _) fun server => ?_
  refine Triple.bind (probePort_spec call _) fun _ => ?_
  refine Triple.bind (perform_looking (fun _ _ => by decide)) fun _ => ?_
  refine Triple.bind (perform_looking (fun _ _ => by decide)) fun _ => ?_
  refine Triple.bind (claimRelease_spec call oldRelease) fun release => ?_
  refine Triple.bind (perform_looking (fun _ _ => by decide)) fun _ => ?_
  refine Triple.get_bind fun p₀ ⟨hrelease, hp₀⟩ => Triple.pure fun p hp => ?_
  have hc := hp₀.claimed
  rw [hp]
  refine ⟨hp₀, hrelease, ⟨hold, hc.unit, ?_, ?_⟩, hinstalled⟩
  · exact congrArg (fun d : DatabaseFiles Bytes => d.main.isSome) hc.database
  · exact congrArg Option.isSome hc.config

/-- Before the `try` block only an unfinished release of the new name is removed. -/
theorem prepare_spec (render : Rendering Bytes Server) (call : Call Bytes) :
    Triple (Preparing (releaseName call) w₀) (prepare render call)
      (fun r p => ∀ before, r = .inr before → Entering call w₀ before p) RaisedOutside := by
  refine Triple.bind (perform_looking (fun _ _ => by decide)) fun _ => ?_
  refine Triple.bind (perform_looking (fun _ _ => by decide)) fun _ => ?_
  refine Triple.bind (perform_looking (fun _ _ => by decide)) fun _ => ?_
  refine Triple.bind (perform_looking (fun _ _ => by decide)) fun _ => ?_
  refine Triple.bind (currentTarget_spec call _) fun oldRelease => ?_
  intro p ⟨hp, hold⟩
  have hproceed : (call.upgrade = true → oldRelease.isSome = true) →
      Triple (Preparing (releaseName call) w₀)
        (do return .inr (← prepareRelease render call oldRelease) :
          Script Bytes (String ⊕ Before Bytes Server))
        (fun r p => ∀ before, r = .inr before → Entering call w₀ before p) RaisedOutside := by
    intro hinstalled
    refine Triple.bind (prepareRelease_spec render call _ hold hinstalled) fun before => ?_
    exact Triple.pure fun p hp before' h => by cases h; exact hp
  cases hupgrade : call.upgrade with
  | false =>
      cases oldRelease with
      | none =>
          exact hproceed (fun h => absurd (hupgrade.symm.trans h) (by decide)) p hp
      | some old => exact Triple.pure (fun _ _ before h => by cases h) p hp
  | true =>
      cases oldRelease with
      | none => exact throw_outside requireInstalled_outside p hp
      | some old => exact hproceed (fun _ => rfl) p hp

theorem Entering.unsaved {call : Call Bytes} {p : Progress Bytes}
    (h : Entering call w₀ before p) : Unsaved sqlite before w₀ p where
  undoable := {
    releases := fun name hname => h.preparing.claimed.releases name (h.release ▸ hname)
    current := fun _ => h.preparing.claimed.current
    config := fun _ => h.preparing.claimed.config
    saved := fun copy hcopy => by rw [h.preparing.backup] at hcopy; cases hcopy
    unsaved := fun _ _ => h.preparing.claimed.database }
  backup := h.preparing.backup
  database := h.preparing.claimed.database

/-- **What a failed `deploy` leaves.**  `I` has to hold wherever the `try` block raises, and the
handler has to lead from `I` to `R`. -/
theorem deploy_failure {I : Before Bytes Server → Progress Bytes → Prop}
    {R : Progress Bytes → Prop} (sqlite : Sqlite Bytes Content)
    (render : Rendering Bytes Server) (call : Call Bytes) (w₀ : World Bytes)
    (htry : ∀ before p₀, Entering call w₀ before p₀ →
      Triple (Entering call w₀ before) (tryBlock sqlite render call before)
        (fun _ _ => True) (onRaise fun _ => I before))
    (hundo : ∀ before p₀, Entering call w₀ before p₀ →
      Triple (I before) (rollback call before) (fun _ => R) RaisedOutside) :
    Triple (fun p => p = { world := w₀ }) (deploy sqlite render call) (fun _ _ => True)
      (onRaise fun op p => op ∈ tryOperations → R p) := by
  have houtside : ∀ halt p, RaisedOutside halt p →
      onRaise (fun op p => op ∈ tryOperations → R p) halt p := by
    intro halt p h
    cases halt with
    | raised op => exact fun hop => absurd hop h
    | killed op => trivial
  have hstart : ∀ p : Progress Bytes, p = { world := w₀ } →
      Preparing (releaseName call) w₀ p := by
    intro p hp
    rw [hp]
    exact ⟨⟨fun _ _ => rfl, rfl, rfl, rfl, rfl, rfl⟩, rfl, rfl, rfl⟩
  refine Triple.bind ((prepare_spec render call).conseq hstart (fun _ _ h => h) houtside)
    fun r => ?_
  cases r with
  | inl old => exact Triple.pure fun _ _ => trivial
  | inr before =>
      intro p₀ hp₀
      have hentering := hp₀ before rfl
      refine Triple.bind (R := fun _ _ => True) ?_ (fun _ => Triple.pure fun _ _ => trivial) p₀
        hentering
      refine Triple.tryCatch (htry before p₀ hentering) fun halt => ?_
      cases halt with
      | killed op => exact Triple.throw fun _ _ => trivial
      | raised op =>
          refine Triple.bind ((hundo before p₀ hentering).conseq (fun _ h => h)
            (fun _ _ h => h) houtside) fun _ => ?_
          exact Triple.throw fun p hp _ => hp

theorem deploy_restores (sqlite : Sqlite Bytes Content) (render : Rendering Bytes Server)
    (call : Call Bytes) (w₀ : World Bytes) :
    Triple (fun p => p = { world := w₀ }) (deploy sqlite render call) (fun _ _ => True)
      (onRaise fun op p => op ∈ tryOperations → Restored sqlite (releaseName call) w₀ p.world) := by
  refine deploy_failure (I := fun before => Undoable sqlite before w₀) sqlite render call w₀
    (fun before p₀ hp₀ => ?_) (fun before p₀ hp₀ => ?_)
  · exact (tryBlock_undoable render call hp₀.describes).conseq (fun _ h => h.unsaved)
      (fun _ _ _ => trivial) (fun _ _ h => h)
  · exact (rollback_restores call hp₀.describes).conseq (fun _ h => h)
      (fun _ _ h => hp₀.release ▸ h) (fun _ _ h => h)

end

/-! ### A run -/

/-- Texts for bytes: a log is content that still has to be appended. -/
def textSqlite : Sqlite String String where
  content main wal := main ++ wal.getD ""
  backup main wal := main ++ wal.getD ""
  content_backup main wal := by simp

def textRendering : Rendering String String where
  readServerConfiguration := id
  accessConfiguration := "local"
  renderConfig := id
  renderUnit root server := match root with
    | .release name => name ++ ":" ++ server
    | .current => "current:" ++ server

/-- An installation of `0.1.0` whose service is running. -/
def installedWorld : World String where
  current := .link "0.1.0"
  releases := fun name => if name = "0.1.0" then some { source := true, venv := true } else none
  unit := some "current:local"
  config := some "local"
  database := { main := some "rows", wal := some "+more" }
  service := { running := some "0.1.0", enabled := true, loaded := some "current:local" }

/-- An upgrade to `0.2.0` in which the operation `op` raises after its effect. -/
def failingUpgrade (op : Operation) : Call String where
  upgrade := true
  version := "0.2.0"
  stamp := "20260101000000-00000000"
  outcome := fun o => if o = op then .raised else .done
  applied := fun _ => true
  migrated := fun _ => { main := some "migrated" }

end MachineDeck.Deploy

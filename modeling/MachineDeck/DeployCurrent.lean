import MachineDeck.DeployRollback
import Mathlib.Data.List.Induction

/-!
# `current` never points at an unfinished release

* `ReleaseDir.Complete`, `Call.Built` — a release directory with everything in it, and a call that
  came to the end of every operation that puts something into it;
* `After` — what one call, ended in any way, does to `current` and to the release behind it;
* `deploy_after` — every exit of `deploy`, also of a process killed in its handler, is such an end;
* `current_finished` — what follows for any succession of calls.

A state between two steps is the state in which a call killed there leaves the files.
-/

namespace MachineDeck.Deploy

open ProgramTriple

section
variable {Bytes Content Server : Type}

/-! ### What one call does to `current` -/

structure ReleaseDir.Complete (version : String) (dir : ReleaseDir Bytes) : Prop where
  installing : dir.installing = false
  source : dir.source = true
  venv : dir.venv = true
  package : dir.package = true
  version : dir.version = some version
  migrated : dir.migrated = true

/-- The operations that put something into the new release directory. -/
def buildingOperations : List Operation :=
  [.makeStaging, .writeMarker, .copySource, .createVenv, .pipInstall, .writeVersion, .migrate,
    .unlinkMarker]

def Call.Built (call : Call Bytes) : Prop := ∀ op ∈ buildingOperations, call.outcome op = .done

/-- The release that `current` pointed at is as it was. -/
def Kept (w₀ w : World Bytes) : Prop :=
  ∀ old, w₀.current = .link old → w.releases old = w₀.releases old

/-- `current` and the release behind it are as they were. -/
structure Unmoved (w₀ w : World Bytes) : Prop where
  current : w.current = w₀.current
  kept : Kept w₀ w

/-- `current` points at the release that the call has built. -/
structure Moved (call : Call Bytes) (w₀ w : World Bytes) : Prop where
  current : w.current = .link (releaseName call)
  complete : ∃ dir, w.releases (releaseName call) = some dir ∧ dir.Complete call.version
  built : call.Built
  fresh : ∀ dir, w₀.releases (releaseName call) = some dir → dir.installing = true
  kept : Kept w₀ w

def After (call : Call Bytes) (w₀ w : World Bytes) : Prop := Unmoved w₀ w ∨ Moved call w₀ w

/-- What the handler finds: `switched` says which of the two it is. -/
def Handled (call : Call Bytes) (w₀ : World Bytes) (p : Progress Bytes) : Prop :=
  (p.switched = false ∧ Unmoved w₀ p.world) ∨ (p.switched = true ∧ Moved call w₀ p.world)

/-- An exception goes to the handler, a kill ends the call. -/
def Halted (call : Call Bytes) (w₀ : World Bytes) : Halt → Progress Bytes → Prop
  | .raised _, p => Handled call w₀ p
  | .killed _, p => After call w₀ p.world

/-- However the call ends. -/
def Ended (call : Call Bytes) (w₀ : World Bytes) (_ : Halt) (p : Progress Bytes) : Prop :=
  After call w₀ p.world

variable {call : Call Bytes} {w₀ : World Bytes} {before : Before Bytes Server}

theorem Handled.after {p : Progress Bytes} (h : Handled call w₀ p) : After call w₀ p.world := by
  rcases h with ⟨-, h⟩ | ⟨-, h⟩
  · exact Or.inl h
  · exact Or.inr h

theorem Handled.halted {p : Progress Bytes} (h : Handled call w₀ p) (halt : Halt) :
    Halted call w₀ halt p := by
  cases halt with
  | raised op => exact h
  | killed op => exact h.after

/-- Files with the same pointer and the same releases. -/
structure SameReleases (w w' : World Bytes) : Prop where
  current : w'.current = w.current
  releases : w'.releases = w.releases

theorem Unmoved.same {w w' : World Bytes} (h : Unmoved w₀ w) (hw : SameReleases w w') :
    Unmoved w₀ w' where
  current := hw.current.trans h.current
  kept := fun old hold => (congrFun hw.releases old).trans (h.kept old hold)

theorem Moved.same {w w' : World Bytes} (h : Moved call w₀ w) (hw : SameReleases w w') :
    Moved call w₀ w' where
  current := hw.current.trans h.current
  complete := by
    rw [hw.releases]
    exact h.complete
  built := h.built
  fresh := h.fresh
  kept := fun old hold => (congrFun hw.releases old).trans (h.kept old hold)

theorem Handled.same {p p' : Progress Bytes} (h : Handled call w₀ p)
    (hw : SameReleases p.world p'.world) (hswitched : p'.switched = p.switched) :
    Handled call w₀ p' := by
  rcases h with ⟨hs, h⟩ | ⟨hs, h⟩
  · exact Or.inl ⟨hswitched.trans hs, h.same hw⟩
  · exact Or.inr ⟨hswitched.trans hs, h.same hw⟩

/-- A change of one release that `current` did not point at. -/
theorem Unmoved.update {w : World Bytes} (h : Unmoved w₀ w) {name : String}
    (hname : w₀.current ≠ .link name) (dir : Option (ReleaseDir Bytes)) :
    Unmoved w₀ { w with releases := Function.update w.releases name dir } where
  current := h.current
  kept := by
    intro old hold
    have hne : old ≠ name := by
      rintro rfl
      exact hname hold
    show Function.update w.releases name dir old = w₀.releases old
    rw [Function.update_of_ne hne]
    exact h.kept old hold

/-! ### Rules -/

/-- Until `current` is moved. -/
def Standing (w₀ : World Bytes) (p : Progress Bytes) : Prop :=
  p.switched = false ∧ Unmoved w₀ p.world

/-- After it was moved. -/
def Switched (call : Call Bytes) (w₀ : World Bytes) (p : Progress Bytes) : Prop :=
  p.switched = true ∧ Moved call w₀ p.world

/-- The release directory is in progress, and `current` is where it was. -/
structure Building (call : Call Bytes) (w₀ : World Bytes) (dir : ReleaseDir Bytes)
    (p : Progress Bytes) : Prop where
  standing : Standing w₀ p
  dir : p.world.releases (releaseName call) = some dir

theorem Standing.halted {p : Progress Bytes} (h : Standing w₀ p) (halt : Halt) :
    Halted call w₀ halt p :=
  Handled.halted (Or.inl h) halt

theorem changing_same {call : Call Bytes} {op : Operation} {f : World Bytes → World Bytes}
    (hf : ∀ w, SameReleases w (f w)) (outcome : OpOutcome) (p : Progress Bytes) :
    SameReleases p.world (changing call op f outcome p).world ∧
      (changing call op f outcome p).switched = p.switched := by
  rcases changing_cases call op f outcome p with h | h
  · rw [h]
    exact ⟨hf p.world, rfl⟩
  · rw [h]
    exact ⟨⟨rfl, rfl⟩, rfl⟩

theorem Standing.same {p p' : Progress Bytes} (h : Standing w₀ p)
    (hw : SameReleases p.world p'.world ∧ p'.switched = p.switched) : Standing w₀ p' :=
  ⟨hw.2.trans h.1, h.2.same hw.1⟩

theorem Building.same {dir : ReleaseDir Bytes} {p p' : Progress Bytes}
    (h : Building call w₀ dir p)
    (hw : SameReleases p.world p'.world ∧ p'.switched = p.switched) :
    Building call w₀ dir p' where
  standing := h.standing.same hw
  dir := (congrFun hw.1.releases _).trans h.dir

/-- A finished change of the directory, and an unfinished one. -/
theorem perform_edit {op : Operation} {dir : ReleaseDir Bytes}
    (hname : w₀.current ≠ .link (releaseName call)) (f : ReleaseDir Bytes → ReleaseDir Bytes) :
    Triple (Building call w₀ dir)
      (perform call op (changing call op (·.editRelease (releaseName call) f)))
      (fun _ p => Building call w₀ (f dir) p ∧ call.outcome op = .done) (Halted call w₀) := by
  have hhalt : ∀ outcome p, Building call w₀ dir p →
      Standing w₀ (changing call op (·.editRelease (releaseName call) f) outcome p) := by
    intro outcome p hp
    rcases changing_cases call op (·.editRelease (releaseName call) f) outcome p with h | h
    · rw [h]
      exact ⟨hp.standing.1, hp.standing.2.update hname _⟩
    · rw [h]
      exact hp.standing
  refine perform_ends (fun hout p hp => ⟨⟨hhalt .done p hp, ?_⟩, hout⟩)
    (fun _ p hp => (hhalt .raised p hp).halted _) (fun _ p hp => (hhalt .killed p hp).halted _)
  show Function.update p.world.releases (releaseName call) _ (releaseName call) = some (f dir)
  rw [Function.update_self, hp.dir]
  rfl

/-- A file operation whose last system call edits the directory. -/
theorem perform_replaceEdit {op : Operation} {dir : ReleaseDir Bytes}
    (hname : w₀.current ≠ .link (releaseName call)) (f : ReleaseDir Bytes → ReleaseDir Bytes) :
    Triple (Building call w₀ dir)
      (perform call op (replacing call op (·.editRelease (releaseName call) f)))
      (fun _ p => Building call w₀ (f dir) p ∧ call.outcome op = .done) (Halted call w₀) := by
  refine perform_ends (fun hout p hp => ⟨⟨⟨hp.standing.1, hp.standing.2.update hname _⟩, ?_⟩, hout⟩)
    (fun _ p hp => hp.standing.halted _) (fun _ p hp => ?_)
  · show Function.update p.world.releases (releaseName call) _ (releaseName call) = some (f dir)
    rw [Function.update_self, hp.dir]
    rfl
  · have hedited : Standing w₀
        { p with world := p.world.editRelease (releaseName call) f } :=
      ⟨hp.standing.1, hp.standing.2.update hname _⟩
    simp only [replacing]
    split
    · exact hedited.halted _
    · exact hp.standing.halted _

theorem perform_make (hname : w₀.current ≠ .link (releaseName call)) :
    Triple (Standing w₀)
      (perform call .makeStaging (replacing call .makeStaging (·.makeRelease (releaseName call))))
      (fun _ p => Building call w₀ {} p ∧ call.outcome .makeStaging = .done)
      (Halted call w₀) := by
  refine perform_ends (fun hout p hp => ⟨⟨⟨hp.1, hp.2.update hname _⟩, ?_⟩, hout⟩)
    (fun _ p hp => hp.halted _) (fun _ p hp => ?_)
  · exact Function.update_self _ _ _
  · have hmade : Standing w₀ { p with world := p.world.makeRelease (releaseName call) } :=
      ⟨hp.1, hp.2.update hname _⟩
    simp only [replacing]
    split
    · exact hmade.halted _
    · exact hp.halted _

/-- An operation that leaves the releases alone. -/
theorem perform_beside {op : Operation} {dir : ReleaseDir Bytes}
    {effect : OpOutcome → Progress Bytes → Progress Bytes}
    (heffect : ∀ outcome p, SameReleases p.world (effect outcome p).world ∧
      (effect outcome p).switched = p.switched) :
    Triple (Building call w₀ dir) (perform call op effect) (fun _ => Building call w₀ dir)
      (Halted call w₀) :=
  perform_always (fun outcome p hp => hp.same (heffect outcome p))
    (fun halt _ hp => hp.standing.halted halt)

theorem looking_same (outcome : OpOutcome) (p : Progress Bytes) :
    SameReleases p.world (looking outcome p).world ∧ (looking outcome p).switched = p.switched :=
  ⟨⟨rfl, rfl⟩, rfl⟩

/-! ### The `try` block -/

/-- What the operations before the first look at the service have put into the directory. -/
def stagedDir (version : String) : ReleaseDir Bytes :=
  { installing := true, source := true, venv := true, package := true, version := some version }

def Call.Staged (call : Call Bytes) : Prop :=
  ∀ op ∈ [Operation.makeStaging, .writeMarker, .copySource, .createVenv, .pipInstall,
    .writeVersion], call.outcome op = .done

theorem stageRelease_builds (render : Rendering Bytes Server)
    (hrelease : before.release = releaseName call)
    (hname : w₀.current ≠ .link (releaseName call)) :
    Triple (Standing w₀) (stageRelease render call before)
      (fun _ p => Building call w₀ (stagedDir call.version) p ∧ call.Staged)
      (Halted call w₀) := by
  unfold stageRelease
  simp only [hrelease]
  refine Triple.bind (perform_make hname) fun _ => Triple.of_and fun hmake => ?_
  refine Triple.bind (perform_edit hname _) fun _ => Triple.of_and fun hmarker => ?_
  refine Triple.bind (perform_edit hname _) fun _ => Triple.of_and fun hcopy => ?_
  refine Triple.bind (perform_edit hname _) fun _ => Triple.of_and fun hvenv => ?_
  refine Triple.bind (perform_edit hname _) fun _ => Triple.of_and fun hpip => ?_
  refine Triple.bind (perform_edit hname _) fun _ => Triple.of_and fun hversion => ?_
  refine Triple.bind (perform_edit hname _) fun _ => Triple.of_and fun _ => ?_
  refine Triple.bind (perform_beside looking_same) fun _ => ?_
  refine Triple.bind (perform_replaceEdit hname _) fun _ => Triple.of_and fun _ => ?_
  have hstaged : call.Staged := by
    simp only [Call.Staged, List.forall_mem_cons]
    exact ⟨hmake, hmarker, hcopy, hvenv, hpip, hversion, fun _ h => absurd h (List.not_mem_nil)⟩
  refine Triple.get_bind fun p₀ hp₀ =>
    Triple.startingAt (P := Building call w₀ (stagedDir call.version)) ?_ hp₀
  split
  · refine (perform_beside ?_).conseq (fun _ h => h) (fun _ _ h => ⟨h, hstaged⟩) (fun _ _ h => h)
    exact changing_same fun _ => ⟨rfl, rfl⟩
  · exact Triple.pure fun _ h => ⟨h, hstaged⟩

theorem stopOldService_builds {dir : ReleaseDir Bytes} :
    Triple (Building call w₀ dir) (stopOldService call before) (fun _ => Building call w₀ dir)
      (Halted call w₀) := by
  unfold stopOldService
  split
  · refine Triple.bind (perform_beside looking_same) fun _ => ?_
    refine Triple.get_bind fun p₀ hp₀ => Triple.startingAt (P := Building call w₀ dir) ?_ hp₀
    split
    · refine Triple.bind (perform_beside (changing_same fun _ => ⟨rfl, rfl⟩)) fun _ => ?_
      exact Triple.modify fun p hp => hp.same ⟨⟨rfl, rfl⟩, rfl⟩
    · exact Triple.pure fun _ h => h
  · exact Triple.pure fun _ h => h

theorem saveDatabase_builds (sqlite : Sqlite Bytes Content) {dir : ReleaseDir Bytes} :
    Triple (Building call w₀ dir) (saveDatabase sqlite call) (fun _ => Building call w₀ dir)
      (Halted call w₀) := by
  refine perform_beside fun outcome p => ?_
  cases outcome with
  | done => exact ⟨⟨rfl, rfl⟩, rfl⟩
  | raised =>
    simp only
    split <;> exact ⟨⟨rfl, rfl⟩, rfl⟩
  | killed =>
    simp only
    split <;> exact ⟨⟨rfl, rfl⟩, rfl⟩

theorem migrateDatabase_builds (hrelease : before.release = releaseName call)
    (hname : w₀.current ≠ .link (releaseName call)) {dir : ReleaseDir Bytes} :
    Triple (Building call w₀ dir) (migrateDatabase call before)
      (fun _ p => Building call w₀ { dir with migrated := true } p ∧ call.outcome .migrate = .done)
      (Halted call w₀) := by
  unfold migrateDatabase
  simp only [hrelease]
  have hmigrate : Triple (Building call w₀ dir)
      (perform call .migrate fun outcome p =>
        { p with world := { (p.world.editRelease (releaseName call)
            fun dir => { dir with migrated := dir.migrated || outcome == .done }) with
          database := call.migrated p.world.database } })
      (fun _ p => Building call w₀ { dir with migrated := true } p ∧
        call.outcome .migrate = .done) (Halted call w₀) := by
    have hstanding : ∀ outcome p, Building call w₀ dir p → Standing w₀
        { p with world := { (p.world.editRelease (releaseName call)
            fun dir => { dir with migrated := dir.migrated || outcome == OpOutcome.done }) with
          database := call.migrated p.world.database } } := by
      intro outcome p hp
      refine ⟨hp.standing.1, ?_⟩
      exact (hp.standing.2.update hname _).same ⟨rfl, rfl⟩
    refine perform_ends (fun hout p hp => ⟨⟨hstanding .done p hp, ?_⟩, hout⟩)
      (fun _ p hp => (hstanding .raised p hp).halted _)
      (fun _ p hp => (hstanding .killed p hp).halted _)
    show Function.update p.world.releases (releaseName call) _ (releaseName call) = _
    rw [Function.update_self, hp.dir, Option.map_some]
    simp
  refine Triple.bind hmigrate fun _ => Triple.of_and fun hdone => ?_
  refine Triple.get_bind fun p₀ hp₀ =>
    Triple.startingAt (P := Building call w₀ { dir with migrated := true }) ?_ hp₀
  have hchmod : Triple (Building call w₀ { dir with migrated := true })
      (perform call .chmodDatabase looking)
      (fun _ p => Building call w₀ { dir with migrated := true } p ∧
        call.outcome .migrate = .done) (Halted call w₀) :=
    (perform_beside looking_same).conseq (fun _ h => h) (fun _ _ h => ⟨h, hdone⟩) (fun _ _ h => h)
  split
  · exact Triple.bind (Triple.throw fun _ hp => hp.standing.halted _) fun _ => hchmod
  · exact hchmod

/-- An operation after the switch. -/
theorem perform_switched {op : Operation} {effect : OpOutcome → Progress Bytes → Progress Bytes}
    (heffect : ∀ outcome p, SameReleases p.world (effect outcome p).world ∧
      (effect outcome p).switched = p.switched) :
    Triple (Switched call w₀) (perform call op effect) (fun _ => Switched call w₀)
      (Halted call w₀) :=
  perform_always
    (fun outcome p hp => ⟨(heffect outcome p).2.trans hp.1, hp.2.same (heffect outcome p).1⟩)
    (fun halt _ hp => Handled.halted (Or.inr hp) halt)

theorem built_of_staged (hstaged : call.Staged) (hmigrate : call.outcome .migrate = .done)
    (hmarker : call.outcome .unlinkMarker = .done) : call.Built := by
  intro op hop
  simp only [buildingOperations, List.mem_cons, List.not_mem_nil, or_false] at hop
  rcases hop with rfl | rfl | rfl | rfl | rfl | rfl | rfl | rfl
  · exact hstaged _ (by simp)
  · exact hstaged _ (by simp)
  · exact hstaged _ (by simp)
  · exact hstaged _ (by simp)
  · exact hstaged _ (by simp)
  · exact hstaged _ (by simp)
  · exact hmigrate
  · exact hmarker

theorem activate_switches (render : Rendering Bytes Server)
    (hrelease : before.release = releaseName call)
    (hname : w₀.current ≠ .link (releaseName call))
    (hfresh : ∀ dir, w₀.releases (releaseName call) = some dir → dir.installing = true)
    (hstaged : call.Staged) (hmigrate : call.outcome .migrate = .done) :
    Triple (Building call w₀ { stagedDir call.version with migrated := true })
      (activate render call before) (fun _ => Switched call w₀) (Halted call w₀) := by
  unfold activate
  simp only [hrelease]
  refine Triple.bind (perform_replaceEdit hname _) fun _ => Triple.of_and fun hmarker => ?_
  have hbuilt := built_of_staged hstaged hmigrate hmarker
  have hmoved : ∀ p : Progress Bytes, Building call w₀
      { stagedDir call.version with migrated := true, installing := false } p →
      Moved call w₀ { p.world with current := .link (releaseName call) } := fun p hp =>
    ⟨rfl, ⟨_, hp.dir, ⟨rfl, rfl, rfl, rfl, rfl, rfl⟩⟩, hbuilt, hfresh, hp.standing.2.kept⟩
  have hswitch : Triple
      (Building call w₀ { stagedDir call.version with migrated := true, installing := false })
      (perform call .switchCurrent
        (replacing call .switchCurrent ({ · with current := .link (releaseName call) })))
      (fun _ p => Moved call w₀ p.world) (Halted call w₀) := by
    refine perform_ends (fun _ p hp => hmoved p hp) (fun _ p hp => hp.standing.halted _)
      (fun _ p hp => ?_)
    simp only [replacing]
    split
    · exact Or.inr (hmoved p hp)
    · exact hp.standing.halted (.killed .switchCurrent)
  refine Triple.bind hswitch fun _ => ?_
  refine Triple.bind (R := fun _ => Switched call w₀) (Triple.modify fun p hp => ⟨rfl, hp⟩)
    fun _ => ?_
  refine Triple.bind (perform_switched looking_same) fun _ => ?_
  refine Triple.get_bind fun p₀ hp₀ => Triple.startingAt (P := Switched call w₀) ?_ hp₀
  have hreload : Triple (Switched call w₀)
      (perform call .daemonReload (changing call .daemonReload (·.reload)))
      (fun _ => Switched call w₀) (Halted call w₀) :=
    perform_switched (changing_same fun _ => ⟨rfl, rfl⟩)
  split
  · exact Triple.bind (Triple.throw fun _ hp => Handled.halted (Or.inr hp) _) fun _ => hreload
  · exact Triple.bind (perform_switched (changing_same fun _ => ⟨rfl, rfl⟩)) fun _ => hreload

theorem lingerService_switched :
    Triple (Switched call w₀) (lingerService call) (fun _ => Switched call w₀)
      (Halted call w₀) := by
  unfold lingerService
  split
  · refine Triple.bind (perform_switched looking_same) fun _ => ?_
    split
    · exact perform_switched (changing_same fun _ => ⟨rfl, rfl⟩)
    · exact Triple.pure fun _ hp => hp
  · exact Triple.pure fun _ hp => hp

theorem startService_switched :
    Triple (Switched call w₀) (startService call) (fun _ => Switched call w₀)
      (Halted call w₀) := by
  unfold startService
  split
  · refine Triple.bind (perform_switched (changing_same fun _ => ⟨rfl, rfl⟩)) fun _ => ?_
    exact perform_switched fun _ _ => ⟨⟨rfl, rfl⟩, rfl⟩
  · exact Triple.pure fun _ hp => hp

/-- The `try` block moves `current` after everything is in the directory, or not at all. -/
theorem tryBlock_switches (sqlite : Sqlite Bytes Content) (render : Rendering Bytes Server)
    (hrelease : before.release = releaseName call)
    (hname : w₀.current ≠ .link (releaseName call))
    (hfresh : ∀ dir, w₀.releases (releaseName call) = some dir → dir.installing = true) :
    Triple (Standing w₀) (tryBlock sqlite render call before) (fun _ => Switched call w₀)
      (Halted call w₀) := by
  unfold tryBlock
  refine Triple.bind (stageRelease_builds render hrelease hname) fun _ => ?_
  refine Triple.of_and fun hstaged => ?_
  refine Triple.bind stopOldService_builds fun _ => ?_
  refine Triple.bind (saveDatabase_builds sqlite) fun _ => ?_
  refine Triple.bind (migrateDatabase_builds hrelease hname) fun _ => ?_
  refine Triple.of_and fun hmigrate => ?_
  refine Triple.bind (activate_switches render hrelease hname hfresh hstaged hmigrate) fun _ => ?_
  refine Triple.bind lingerService_switched fun _ => ?_
  exact startService_switched

/-! ### The handler -/

/-- An operation of the handler once `current` is back. -/
theorem perform_unmoved {op : Operation} {effect : OpOutcome → Progress Bytes → Progress Bytes}
    (heffect : ∀ outcome p, Unmoved w₀ p.world → Unmoved w₀ (effect outcome p).world) :
    Triple (fun p => Unmoved w₀ p.world) (perform call op effect)
      (fun _ p => Unmoved w₀ p.world) (Ended call w₀) :=
  perform_always heffect fun _ _ hp => Or.inl hp

theorem perform_unmoved_changing {op : Operation} {f : World Bytes → World Bytes}
    (hf : ∀ w, SameReleases w (f w)) :
    Triple (fun p => Unmoved w₀ p.world) (perform call op (changing call op f))
      (fun _ p => Unmoved w₀ p.world) (Ended call w₀) :=
  perform_unmoved fun outcome p hp => hp.same (changing_same hf outcome p).1

theorem perform_unmoved_removing {op : Operation} {name : String}
    (hname : w₀.current ≠ .link name) :
    Triple (fun p => Unmoved w₀ p.world) (perform call op (removing call op name))
      (fun _ p => Unmoved w₀ p.world) (Ended call w₀) := by
  refine perform_unmoved fun outcome p hp => ?_
  obtain ⟨dir, h⟩ := removing_eq call op name outcome p
  rw [h]
  exact hp.update hname dir

theorem bestEffort_handled {op : Operation} {f : World Bytes → World Bytes}
    (hf : ∀ w, SameReleases w (f w)) :
    Triple (Handled call w₀) (bestEffort call op (changing call op f))
      (fun _ => Handled call w₀) (Ended call w₀) :=
  bestEffort_always
    (fun outcome p hp => hp.same (changing_same hf outcome p).1 (changing_same hf outcome p).2)
    (fun _ _ hp => hp.after)

theorem rollbackService_handled :
    Triple (Handled call w₀) (rollbackService call before) (fun _ => Handled call w₀)
      (Ended call w₀) := by
  unfold rollbackService
  split
  · exact bestEffort_handled fun _ => ⟨rfl, rfl⟩
  · exact bestEffort_handled fun _ => ⟨rfl, rfl⟩

/-- The pointer goes back before anything is removed. -/
theorem rollbackCurrent_unmoves (hcurrent : w₀.current = match before.oldRelease with
      | some old => .link old
      | none => .absent) :
    Triple (Handled call w₀) (rollbackCurrent call before) (fun _ p => Unmoved w₀ p.world)
      (Ended call w₀) := by
  refine Triple.get_bind fun p₀ hp₀ => ?_
  have hback : ∀ p : Progress Bytes, Moved call w₀ p.world → Unmoved w₀ { p.world with
      current := match before.oldRelease with
        | some old => .link old
        | none => .absent } := fun p hp => ⟨hcurrent.symm, hp.kept⟩
  rcases hp₀ with ⟨hs, h⟩ | ⟨hs, h⟩
  · rw [hs, if_neg Bool.false_ne_true]
    exact Triple.pure fun p hp => by rw [hp]; exact h
  · rw [hs, if_pos rfl]
    refine Triple.startingAt (P := fun p => Moved call w₀ p.world) ?_ h
    refine perform_ends (fun _ p hp => hback p hp) (fun _ p hp => Or.inr hp) (fun _ p hp => ?_)
    simp only [replacing]
    split
    · exact Or.inl (hback p hp)
    · exact Or.inr hp

theorem rollback_unmoves (hrelease : before.release = releaseName call)
    (hname : w₀.current ≠ .link (releaseName call))
    (hcurrent : w₀.current = match before.oldRelease with
      | some old => .link old
      | none => .absent) :
    Triple (Handled call w₀) (rollback call before) (fun _ p => Unmoved w₀ p.world)
      (Ended call w₀) := by
  unfold rollback
  refine Triple.bind rollbackService_handled fun _ => ?_
  refine Triple.bind (rollbackCurrent_unmoves hcurrent) fun _ => ?_
  refine Triple.bind (perform_unmoved_changing fun _ => ⟨rfl, rfl⟩) fun _ => ?_
  have hdatabase : Triple (fun p => Unmoved w₀ p.world) (rollbackDatabase call before)
      (fun _ p => Unmoved w₀ p.world) (Ended call w₀) := by
    refine Triple.get_bind fun p₀ hp₀ =>
      Triple.startingAt (P := fun p => Unmoved w₀ p.world) ?_ hp₀
    split
    · exact perform_unmoved_changing fun _ => ⟨rfl, rfl⟩
    · split
      · exact perform_unmoved_changing fun _ => ⟨rfl, rfl⟩
      · exact Triple.pure fun _ hp => hp
  refine Triple.bind hdatabase fun _ => ?_
  have hconfig : Triple (fun p => Unmoved w₀ p.world) (rollbackConfig call before)
      (fun _ p => Unmoved w₀ p.world) (Ended call w₀) := by
    unfold rollbackConfig
    split
    · exact perform_unmoved_changing fun _ => ⟨rfl, rfl⟩
    · exact Triple.pure fun _ hp => hp
  refine Triple.bind hconfig fun _ => ?_
  have hremove : ∀ c : Progress Bytes → Bool, Triple (fun p => Unmoved w₀ p.world)
      (do
        if c (← get) then
          perform call .rollbackRelease (removing call .rollbackRelease before.release))
      (fun _ p => Unmoved w₀ p.world) (Ended call w₀) := by
    intro c
    rw [hrelease]
    refine Triple.get_bind fun p₀ hp₀ =>
      Triple.startingAt (P := fun p => Unmoved w₀ p.world) ?_ hp₀
    split
    · exact perform_unmoved_removing hname
    · exact Triple.pure fun _ hp => hp
  refine Triple.bind (hremove _) fun _ => ?_
  refine Triple.bind (hremove _) fun _ => ?_
  have heffort : ∀ op (f : World Bytes → World Bytes), (∀ w, SameReleases w (f w)) →
      Triple (fun p => Unmoved w₀ p.world) (bestEffort call op (changing call op f))
        (fun _ p => Unmoved w₀ p.world) (Ended call w₀) := fun op f hf =>
    bestEffort_always (fun outcome p hp => hp.same (changing_same hf outcome p).1)
      (fun _ _ hp => Or.inl hp)
  refine Triple.bind (heffort _ _ fun _ => ⟨rfl, rfl⟩) fun _ => ?_
  refine Triple.get_bind fun p₀ hp₀ => Triple.startingAt (P := fun p => Unmoved w₀ p.world) ?_ hp₀
  split
  · exact heffort _ _ fun _ => ⟨rfl, rfl⟩
  · exact Triple.pure fun _ hp => hp

/-! ### The whole call -/

/-- `current` is absent, or something that no deployment writes, or a finished release. -/
def Sound (w : World Bytes) : Prop :=
  ∀ old, w.current = .link old → ∃ dir, w.releases old = some dir ∧ dir.installing = false

/-- Nothing has happened yet. -/
def Fresh (w₀ : World Bytes) (p : Progress Bytes) : Prop := p.switched = false ∧ p.world = w₀

theorem Fresh.standing {p : Progress Bytes} (h : Fresh w₀ p) : Standing w₀ p :=
  ⟨h.1, by rw [h.2], fun _ _ => by rw [h.2]⟩

theorem perform_fresh {op : Operation} :
    Triple (Fresh w₀) (perform call op looking) (fun _ => Fresh w₀) (Ended call w₀) :=
  perform_always (fun _ _ hp => hp) fun _ _ hp => Or.inl hp.standing.2

/-- What the `try` block starts from. -/
structure Ready (call : Call Bytes) (w₀ : World Bytes) (before : Before Bytes Server)
    (p : Progress Bytes) : Prop where
  standing : Standing w₀ p
  release : before.release = releaseName call
  current : w₀.current = match before.oldRelease with
    | some old => .link old
    | none => .absent
  name : w₀.current ≠ .link (releaseName call)
  fresh : ∀ dir, w₀.releases (releaseName call) = some dir → dir.installing = true

theorem claimRelease_fresh (hsound : Sound w₀) (oldRelease : Option String) :
    Triple (Fresh w₀) (claimRelease call oldRelease)
      (fun release p => Standing w₀ p ∧ release = releaseName call ∧
        w₀.current ≠ .link (releaseName call) ∧
        ∀ dir, w₀.releases (releaseName call) = some dir → dir.installing = true)
      (Ended call w₀) := by
  refine Triple.get_bind fun p₀ hp₀ => ?_
  rw [hp₀.2]
  cases hdir : w₀.releases (releaseName call) with
  | none =>
    refine Triple.pure fun p hp => ⟨by rw [hp]; exact hp₀.standing, rfl, ?_, ?_⟩
    · intro hlink
      obtain ⟨dir, hsome, -⟩ := hsound _ hlink
      rw [hdir] at hsome
      cases hsome
    · intro dir hsome
      cases hsome
  | some dir =>
    simp only
    split
    · rename_i hincomplete
      have hinstalling : dir.installing = true := (Bool.and_eq_true _ _ ▸ hincomplete).1
      have hname : w₀.current ≠ .link (releaseName call) := by
        intro hlink
        obtain ⟨dir', hsome, hfinished⟩ := hsound _ hlink
        rw [hdir, Option.some.injEq] at hsome
        rw [← hsome, hinstalling] at hfinished
        cases hfinished
      have hremove : Triple (Standing w₀)
          (perform call .removeIncomplete (removing call .removeIncomplete (releaseName call)))
          (fun _ => Standing w₀) (Ended call w₀) := by
        refine perform_always (fun outcome p hp => ?_) (fun _ _ hp => Or.inl hp.2)
        obtain ⟨dir, h⟩ := removing_eq call .removeIncomplete (releaseName call) outcome p
        rw [h]
        exact ⟨hp.1, hp.2.update hname dir⟩
      refine Triple.bind (hremove.startingAt hp₀.standing) fun _ => Triple.pure fun p hp => ?_
      refine ⟨hp, rfl, hname, fun dir' hsome => ?_⟩
      rw [Option.some.injEq] at hsome
      rw [← hsome]
      exact hinstalling
    · exact Triple.throw fun p hp => Or.inl (by rw [hp]; exact hp₀.standing.2)

theorem prepareRelease_ready (render : Rendering Bytes Server) (hsound : Sound w₀)
    (oldRelease : Option String)
    (hold : w₀.current = match oldRelease with
      | some old => .link old
      | none => .absent) :
    Triple (Fresh w₀) (prepareRelease render call oldRelease)
      (fun before p => Ready call w₀ before p) (Ended call w₀) := by
  have hserver : Triple (Fresh w₀) (chooseServer render call) (fun _ => Fresh w₀)
      (Ended call w₀) := by
    refine Triple.bind perform_fresh fun _ => ?_
    refine Triple.get_bind fun p₀ hp₀ => ?_
    split
    · exact Triple.pure fun p hp => hp ▸ hp₀
    · exact Triple.pure fun p hp => hp ▸ hp₀
  have hport : Triple (Fresh w₀) (probePort call) (fun _ => Fresh w₀) (Ended call w₀) := by
    refine Triple.bind perform_fresh fun _ => ?_
    refine Triple.get_bind fun p₀ hp₀ => ?_
    split
    · exact Triple.throw fun p hp => Or.inl (by rw [hp]; exact hp₀.standing.2)
    · exact Triple.pure fun p hp => hp ▸ hp₀
  refine Triple.bind hserver fun server => ?_
  refine Triple.bind hport fun _ => ?_
  refine Triple.bind perform_fresh fun _ => ?_
  refine Triple.bind perform_fresh fun _ => ?_
  refine Triple.bind (claimRelease_fresh hsound oldRelease) fun release => ?_
  refine Triple.of_and fun ⟨hrelease, hname, hfresh⟩ => ?_
  refine Triple.bind (perform_always (I := Standing w₀) (fun _ _ hp => hp)
    fun _ _ hp => Or.inl hp.2) fun _ => ?_
  refine Triple.get_bind fun p₀ hp₀ => Triple.pure fun p hp => ?_
  exact ⟨by rw [hp]; exact hp₀, hrelease, hold, hname, hfresh⟩

theorem currentTarget_fresh :
    Triple (Fresh w₀) (currentTarget call)
      (fun oldRelease p => Fresh w₀ p ∧ w₀.current = match oldRelease with
        | some old => .link old
        | none => .absent) (Ended call w₀) := by
  refine Triple.bind perform_fresh fun _ => ?_
  refine Triple.get_bind fun p₀ hp₀ => ?_
  have hend : ∀ p, p = p₀ → After call w₀ p.world := by
    intro p hp
    rw [hp]
    exact Or.inl hp₀.standing.2
  rw [hp₀.2]
  cases hcurrent : w₀.current with
  | absent => exact Triple.pure fun p hp => ⟨hp ▸ hp₀, rfl⟩
  | link old => exact Triple.pure fun p hp => ⟨hp ▸ hp₀, rfl⟩
  | outside => exact Triple.throw hend
  | notLink => exact Triple.throw hend

theorem prepare_ready (render : Rendering Bytes Server) (hsound : Sound w₀) :
    Triple (Fresh w₀) (prepare render call)
      (fun result p => match result with
        | .inl _ => Unmoved w₀ p.world
        | .inr before => Ready call w₀ before p) (Ended call w₀) := by
  refine Triple.bind perform_fresh fun _ => ?_
  refine Triple.bind perform_fresh fun _ => ?_
  refine Triple.bind perform_fresh fun _ => ?_
  refine Triple.bind perform_fresh fun _ => ?_
  refine Triple.bind currentTarget_fresh fun oldRelease => Triple.of_and fun hold => ?_
  have hprepare : Triple (Fresh w₀) (prepareRelease render call oldRelease)
      (fun before p => Ready call w₀ before p) (Ended call w₀) :=
    prepareRelease_ready render hsound oldRelease hold
  split
  · exact Triple.throw fun p hp => Or.inl hp.standing.2
  · exact Triple.pure fun p hp => hp.standing.2
  · exact Triple.bind hprepare fun before => Triple.pure fun p hp => hp

/-- **One call**: `current` and the release behind it stay, or `current` moves to the release that
the call has built. -/
theorem deploy_after (sqlite : Sqlite Bytes Content) (render : Rendering Bytes Server)
    (call : Call Bytes) {w₀ : World Bytes} (hsound : Sound w₀) :
    After call w₀ (finalState (deploy sqlite render call { world := w₀ })).world := by
  have hdeploy : Triple (Fresh w₀) (deploy sqlite render call)
      (fun _ p => After call w₀ p.world) (Ended call w₀) := by
    refine Triple.bind (prepare_ready render hsound) fun result => ?_
    cases result with
    | inl old => exact Triple.pure fun p hp => Or.inl hp
    | inr before =>
      refine Triple.forEach fun p₀ hready => ?_
      have htry := (tryBlock_switches sqlite render hready.release hready.name
        hready.fresh).startingAt hready.standing
      have hrollback := rollback_unmoves hready.release hready.name hready.current
      have hhandled : Triple (fun p => p = p₀)
          (tryCatch (tryBlock sqlite render call before) (handle call before))
          (fun _ => Switched call w₀) (Ended call w₀) := by
        refine Triple.tryCatch htry fun halt => ?_
        cases halt with
        | raised op => exact Triple.bind hrollback fun _ => Triple.throw fun _ hp => Or.inl hp
        | killed op => exact Triple.throw fun _ hp => hp
      exact Triple.bind hhandled fun _ => Triple.pure fun _ hp => Or.inr hp.2
  have hend := hdeploy { world := w₀ } ⟨rfl, rfl⟩
  cases hrun : deploy sqlite render call { world := w₀ } with
  | ok release p =>
    rw [hrun] at hend
    exact hend
  | error halt p =>
    rw [hrun] at hend
    exact hend

/-! ### Any succession of calls -/

/-- The files after the calls, each ended in its own way. -/
def deployAll (sqlite : Sqlite Bytes Content) (render : Rendering Bytes Server)
    (w₀ : World Bytes) (calls : List (Call Bytes)) : World Bytes :=
  calls.foldl (fun w call => (finalState (deploy sqlite render call { world := w })).world) w₀

theorem deployAll_concat (sqlite : Sqlite Bytes Content) (render : Rendering Bytes Server)
    (w₀ : World Bytes) (calls : List (Call Bytes)) (call : Call Bytes) :
    deployAll sqlite render w₀ (calls ++ [call]) =
      (finalState
        (deploy sqlite render call { world := deployAll sqlite render w₀ calls })).world := by
  simp [deployAll]

/-- `current` points at a finished release: `call` created the directory and came to the end of
all that goes into it, and from then on the directory has been what it was. -/
def PointsAtFinished (sqlite : Sqlite Bytes Content) (render : Rendering Bytes Server)
    (w₀ : World Bytes) (calls : List (Call Bytes)) : Prop :=
  ∃ earlier call later dir, calls = earlier ++ call :: later ∧
    (deployAll sqlite render w₀ calls).current = .link (releaseName call) ∧
    dir.Complete call.version ∧ call.Built ∧
    (∀ left, (deployAll sqlite render w₀ earlier).releases (releaseName call) = some left →
      left.installing = true) ∧
    ∀ n ≤ later.length, (deployAll sqlite render w₀ (earlier ++ call :: later.take n)).releases
      (releaseName call) = some dir

theorem PointsAtFinished.directory {sqlite : Sqlite Bytes Content}
    {render : Rendering Bytes Server} {calls : List (Call Bytes)}
    (h : PointsAtFinished sqlite render w₀ calls) :
    ∃ name dir, (deployAll sqlite render w₀ calls).current = .link name ∧
      (deployAll sqlite render w₀ calls).releases name = some dir ∧ dir.installing = false := by
  obtain ⟨earlier, call, later, dir, hcalls, hcurrent, hcomplete, -, -, hsince⟩ := h
  refine ⟨_, dir, hcurrent, ?_, hcomplete.installing⟩
  have hnow := hsince later.length (Nat.le_refl _)
  rw [List.take_length, ← hcalls] at hnow
  exact hnow

/-- A call that leaves the release behind `current` alone. -/
theorem PointsAtFinished.unmoved {sqlite : Sqlite Bytes Content}
    {render : Rendering Bytes Server} {calls : List (Call Bytes)} {call : Call Bytes}
    (h : PointsAtFinished sqlite render w₀ calls)
    (hunmoved : Unmoved (deployAll sqlite render w₀ calls)
      (deployAll sqlite render w₀ (calls ++ [call]))) :
    PointsAtFinished sqlite render w₀ (calls ++ [call]) := by
  obtain ⟨earlier, made, later, dir, hcalls, hcurrent, hcomplete, hbuilt, hfresh, hsince⟩ := h
  refine ⟨earlier, made, later ++ [call], dir, by rw [hcalls]; simp,
    hunmoved.current.trans hcurrent, hcomplete, hbuilt, hfresh, fun n hn => ?_⟩
  rw [List.length_append, List.length_singleton] at hn
  by_cases hlast : n ≤ later.length
  · rw [List.take_append_of_le_length hlast]
    exact hsince n hlast
  · have hall : n = later.length + 1 := by omega
    have hnow := hsince later.length (Nat.le_refl _)
    rw [List.take_length, ← hcalls] at hnow
    rw [List.take_of_length_le (by rw [List.length_append, List.length_singleton]; omega)]
    have hlist : earlier ++ made :: (later ++ [call]) = calls ++ [call] := by rw [hcalls]; simp
    rw [hlist]
    exact (hunmoved.kept _ hcurrent).trans hnow

/-- **`current` never points at an unfinished release.**  After any succession of calls, each of
them done, failed at any operation with its handler run in whole or in part, or killed at any
operation, `current` is absent or points at a release directory without marker, whose content the
call that created it has completed. -/
theorem current_finished (sqlite : Sqlite Bytes Content) (render : Rendering Bytes Server)
    {w₀ : World Bytes} (hstart : w₀.current = .absent) (calls : List (Call Bytes)) :
    (deployAll sqlite render w₀ calls).current = .absent ∨
      PointsAtFinished sqlite render w₀ calls := by
  induction calls using List.reverseRecOn with
  | nil => exact Or.inl hstart
  | append_singleton calls call ih =>
    have hsound : Sound (deployAll sqlite render w₀ calls) := by
      intro old hold
      rcases ih with habsent | hpoints
      · rw [habsent] at hold
        cases hold
      · obtain ⟨name, dir, hname, hdir, hfinished⟩ := hpoints.directory
        rw [hname] at hold
        cases hold
        exact ⟨dir, hdir, hfinished⟩
    have hafter := deploy_after sqlite render call hsound
    rw [← deployAll_concat] at hafter
    rcases hafter with hunmoved | hmoved
    · rcases ih with habsent | hpoints
      · exact Or.inl (hunmoved.current.trans habsent)
      · exact Or.inr (hpoints.unmoved hunmoved)
    · obtain ⟨dir, hdir, hcomplete⟩ := hmoved.complete
      refine Or.inr ⟨calls, call, [], dir, rfl, hmoved.current, hcomplete, hmoved.built,
        hmoved.fresh, fun n _ => ?_⟩
      rw [List.take_nil]
      exact hdir

end

def firstInstall : Call String where
  upgrade := false
  version := "0.1.0"
  migrated := fun _ => { main := some "migrated" }

/-- An upgrade whose process is killed while its handler moves `current` back. -/
def killedUpgrade : Call String where
  upgrade := true
  version := "0.2.0"
  stamp := "20260101000000-00000000"
  outcome := fun o =>
    if o = .waitForHealth then .raised else if o = .rollbackCurrent then .killed else .done
  migrated := fun _ => { main := some "migrated" }

theorem current_finished_killed :
    PointsAtFinished textSqlite textRendering {} [firstInstall, killedUpgrade] :=
  (current_finished textSqlite textRendering rfl [firstInstall, killedUpgrade]).resolve_left
    (by decide)

end MachineDeck.Deploy

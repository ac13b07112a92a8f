import MachineDeck.DeployCurrent

/-!
# A first install after one that was killed

A killed process runs no handler, so the next call meets what the killed one left.  The top of
`deploy` tells a leftover release directory by its marker, and an installation by `current`.

* `Installed`, `Installs` — what a first install is for, and that a call of it gets there;
* `Restartable` — the files from which an unhindered first install gets there, by
  `installs_iff_restartable`;
* `Call.SafeAt` — the places at which a first install may be killed and leave such files;
* `firstInstall_exits` — every place at which a first install can stop, with what it leaves;
* `retry_installs_iff` — a retry installs exactly when the first install was killed at such a place.
-/

namespace MachineDeck.Deploy

open ProgramTriple

section
variable {Bytes Content Server : Type}

/-! ### Installations -/

/-- Whether there is a release directory of this name, and whether it has its marker. -/
def World.marker (w : World Bytes) (name : String) : Option Bool :=
  (w.releases name).map ReleaseDir.installing

/-- The unit file is the one for the configuration that is there. -/
def UnitWritten (render : Rendering Bytes Server) (w : World Bytes) : Prop :=
  ∃ text, w.config = some text ∧
    w.unit = some (render.renderUnit .current (render.readServerConfiguration text))

/-- `current` points at a complete release, and the service unit file is written. -/
structure Installed (render : Rendering Bytes Server) (version release : String)
    (w : World Bytes) : Prop where
  current : w.current = .link release
  complete : ∃ dir, w.releases release = some dir ∧ dir.Complete version
  unit : UnitWritten render w

/-- The call returns, and leaves an installation. -/
def Installs (sqlite : Sqlite Bytes Content) (render : Rendering Bytes Server) (call : Call Bytes)
    (w : World Bytes) : Prop :=
  ∃ release p, deploy sqlite render call { world := w } = .ok release p ∧
    Installed render call.version release p.world

/-- Every operation comes to its end, the port is free, and alembic leaves a database. -/
structure Call.Unhindered (call : Call Bytes) : Prop where
  done : ∀ op, call.outcome op = .done
  port : call.portAvailable = true
  migrated : ∀ database, (call.migrated database).main.isSome = true

/-- The files from which a first install of this version comes to its end: nothing is installed and
the release directory is absent or has its marker, or everything is in place. -/
def Restartable (render : Rendering Bytes Server) (version : String) (w : World Bytes) : Prop :=
  (w.current = .absent ∧ w.marker version ≠ some false) ∨
    (w.current = .link version ∧ UnitWritten render w)

/-! ### Where a first install may be killed -/

/-- The operations of the handler. -/
def rollbackOperations : List Operation :=
  [.rollbackStop, .rollbackCurrent, .rollbackUnit, .rollbackDatabase, .rollbackConfig,
    .rollbackRelease, .rollbackReload, .rollbackStart]

/-- The configuration a first install ends with: the one it finds, or its own. -/
def configText (render : Rendering Bytes Server) (w₀ : World Bytes) : Bytes :=
  w₀.config.getD (render.renderConfig render.accessConfiguration)

/-- The unit that a first install writes. -/
def unitText (render : Rendering Bytes Server) (w₀ : World Bytes) : Bytes :=
  render.renderUnit .current (render.readServerConfiguration (configText render w₀))

/-- The unit file was there before the first install. -/
def UnitLeft (render : Rendering Bytes Server) (w₀ : World Bytes) : Prop :=
  w₀.unit = some (unitText render w₀)

/-- A first install that is killed at the operation leaves files from which it can be retried.  It
does not where the release directory stands without its marker and `current` is not moved yet, and
where `current` is moved and the unit not written yet. -/
def Call.SafeAt (call : Call Bytes) (render : Rendering Bytes Server) (w₀ : World Bytes) :
    Operation → Prop
  | .checkHost | .validateSource | .preparePaths | .validateSqliteWritable | .currentTarget
  | .readServer | .probePort | .showEnvironment | .sourceVersion =>
    w₀.marker call.version ≠ some false
  | .removeIncomplete =>
    ((w₀.releases call.version).bind (call.remains .removeIncomplete)).map
      ReleaseDir.installing ≠ some false
  | .makeStaging => call.applied .makeStaging = false
  | .writeMarker => call.applied .writeMarker = true
  | .unlinkMarker => call.applied .unlinkMarker = false
  | .switchCurrent => call.applied .switchCurrent = true ∧ UnitLeft render w₀
  | .readActiveServer => UnitLeft render w₀
  | .writeUnit => call.applied .writeUnit = true ∨ UnitLeft render w₀
  | _ => True

/-! ### Phases -/

/-- What a retry looks at: the pointer, the release directory's marker, the unit file and the
configuration. -/
structure Phase (name : String) (pointer : Pointer) (marked : Option Bool)
    (unit config : Option Bytes) (w : World Bytes) : Prop where
  current : w.current = pointer
  marker : w.marker name = marked
  unit : w.unit = unit
  config : w.config = config

section
variable {render : Rendering Bytes Server} {name : String} {pointer : Pointer}
  {marked : Option Bool} {unit config : Option Bytes} {w w' : World Bytes}

theorem Phase.same (h : Phase name pointer marked unit config w) (hcurrent : w'.current = w.current)
    (hreleases : w'.releases = w.releases) (hunit : w'.unit = w.unit)
    (hconfig : w'.config = w.config) : Phase name pointer marked unit config w' where
  current := hcurrent.trans h.current
  marker := by rw [World.marker, hreleases]; exact h.marker
  unit := hunit.trans h.unit
  config := hconfig.trans h.config

/-- A change of the release directory. -/
theorem Phase.update (h : Phase name pointer marked unit config w)
    (dir : Option (ReleaseDir Bytes)) :
    Phase name pointer (dir.map ReleaseDir.installing) unit config
      { w with releases := Function.update w.releases name dir } where
  current := h.current
  marker := congrArg (Option.map ReleaseDir.installing) (Function.update_self name dir w.releases)
  unit := h.unit
  config := h.config

theorem Phase.edit (h : Phase name pointer marked unit config w)
    (f : ReleaseDir Bytes → ReleaseDir Bytes) {g : Bool → Bool}
    (hf : ∀ dir, (f dir).installing = g dir.installing) :
    Phase name pointer (marked.map g) unit config (w.editRelease name f) := by
  have hupdate := h.update ((w.releases name).map f)
  have hmarked : ((w.releases name).map f).map ReleaseDir.installing = marked.map g := by
    rw [← h.marker, World.marker, Option.map_map, Option.map_map]
    exact congrArg (fun k => (w.releases name).map k) (funext hf)
  rw [hmarked] at hupdate
  exact hupdate

/-- Before `current` is moved the marker decides. -/
theorem Phase.restartable_absent (h : Phase name .absent marked unit config w) :
    Restartable render name w ↔ marked ≠ some false := by
  rw [← h.marker]
  constructor
  · rintro (⟨-, hmarker⟩ | ⟨hcurrent, -⟩)
    · exact hmarker
    · rw [h.current] at hcurrent
      cases hcurrent
  · intro hmarker
    exact Or.inl ⟨h.current, hmarker⟩

/-- Afterwards the unit does. -/
theorem Phase.restartable_moved {text : Bytes}
    (h : Phase name (.link name) marked unit (some text) w) :
    Restartable render name w ↔
      unit = some (render.renderUnit .current (render.readServerConfiguration text)) := by
  constructor
  · rintro (⟨hcurrent, -⟩ | ⟨-, text', htext, hunit⟩)
    · rw [h.current] at hcurrent
      cases hcurrent
    · rw [h.config, Option.some.injEq] at htext
      rw [← h.unit, hunit, htext]
  · intro hunit
    exact Or.inr ⟨h.current, text, h.config, h.unit.trans hunit⟩

end

/-! ### Exits -/

variable {render : Rendering Bytes Server} {call : Call Bytes} {w₀ : World Bytes}
  {before : Before Bytes Server}

/-- Killed at the operation, the first install leaves these files. -/
def Resumes (render : Rendering Bytes Server) (call : Call Bytes) (w₀ w : World Bytes)
    (op : Operation) : Prop :=
  Restartable render call.version w ↔ call.SafeAt render w₀ op

/-- An unhindered first install raises nothing unless it finds a release directory without marker. -/
def Hindered (call : Call Bytes) (w₀ : World Bytes) : Prop :=
  call.Unhindered → w₀.marker call.version = some false

/-- However the first install ends without returning. -/
def Exit (render : Rendering Bytes Server) (call : Call Bytes) (w₀ : World Bytes) :
    Halt → Progress Bytes → Prop
  | .raised _, _ => Hindered call w₀
  | .killed op, p =>
    call.outcome op = .killed ∧ (op ∉ rollbackOperations → Resumes render call w₀ p.world op)

theorem hindered_of_outcome (op : Operation) (h : call.outcome op ≠ .done) : Hindered call w₀ :=
  fun hunhindered => absurd (hunhindered.done op) h

/-- One operation of the forward path. -/
theorem perform_step {I J : World Bytes → Prop} {op : Operation}
    {effect : OpOutcome → Progress Bytes → Progress Bytes}
    (hdone : ∀ p, I p.world → J (effect .done p).world)
    (hkilled : ∀ p, I p.world → Resumes render call w₀ (effect .killed p).world op) :
    Triple (fun p => I p.world) (perform call op effect) (fun _ p => J p.world)
      (Exit render call w₀) :=
  perform_ends (fun _ p hp => hdone p hp)
    (fun hout _ _ => hindered_of_outcome op (by rw [hout]; decide))
    (fun hout p hp => ⟨hout, fun _ => hkilled p hp⟩)

theorem perform_look {I : World Bytes → Prop} {op : Operation}
    (hI : ∀ w, I w → Resumes render call w₀ w op) :
    Triple (fun p => I p.world) (perform call op looking) (fun _ p => I p.world)
      (Exit render call w₀) :=
  perform_step (fun _ hp => hp) fun p hp => hI p.world hp

/-- A killed change has been made or has not. -/
theorem perform_change {I J : World Bytes → Prop} {op : Operation} {f : World Bytes → World Bytes}
    (hf : ∀ w, I w → J (f w))
    (hmade : call.applied op = true → ∀ w, J w → Resumes render call w₀ w op)
    (hleft : call.applied op = false → ∀ w, I w → Resumes render call w₀ w op) :
    Triple (fun p => I p.world) (perform call op (changing call op f)) (fun _ p => J p.world)
      (Exit render call w₀) := by
  refine perform_step (fun p hp => hf p.world hp) fun p hp => ?_
  cases happlied : call.applied op with
  | true =>
      simp only [changing, happlied]
      exact hmade happlied _ (hf p.world hp)
  | false =>
      simp only [changing, happlied]
      exact hleft happlied _ hp

theorem perform_replace {I J : World Bytes → Prop} {op : Operation} {f : World Bytes → World Bytes}
    (hf : ∀ w, I w → J (f w))
    (hmade : call.applied op = true → ∀ w, J w → Resumes render call w₀ w op)
    (hleft : call.applied op = false → ∀ w, I w → Resumes render call w₀ w op) :
    Triple (fun p => I p.world) (perform call op (replacing call op f)) (fun _ p => J p.world)
      (Exit render call w₀) := by
  refine perform_step (fun p hp => hf p.world hp) fun p hp => ?_
  cases happlied : call.applied op with
  | true =>
      simp only [replacing, happlied]
      exact hmade happlied _ (hf p.world hp)
  | false =>
      simp only [replacing, happlied]
      exact hleft happlied _ hp

/-! ### Up to the `try` block -/

/-- What the `try` block of a first install starts from. -/
structure FirstEntry (render : Rendering Bytes Server) (call : Call Bytes) (w₀ : World Bytes)
    (before : Before Bytes Server) : Prop where
  oldRelease : before.oldRelease = none
  release : before.release = call.version
  claimed : w₀.marker call.version ≠ some false
  server : w₀.config = none → before.server = render.accessConfiguration

/-- Nothing is changed yet. -/
theorem untouched_resumes (hcurrent : w₀.current = .absent) {op : Operation}
    (hsafe : call.SafeAt render w₀ op = (w₀.marker call.version ≠ some false)) :
    ∀ w, w = w₀ → Resumes render call w₀ w op := by
  intro w hw
  have hphase : Phase call.version .absent (w₀.marker call.version) w.unit w.config w :=
    ⟨by rw [hw, hcurrent], by rw [hw], rfl, rfl⟩
  rw [Resumes, hsafe]
  exact hphase.restartable_absent

/-- A triple whose starting files are known. -/
theorem triple_at {α : Type} {I : World Bytes → Prop} {m : Script Bytes α}
    {Q : α → Progress Bytes → Prop} {E : Halt → Progress Bytes → Prop} {p₀ : Progress Bytes}
    (h : Triple (fun p => I p.world) m Q E) (hp₀ : I p₀.world) :
    Triple (fun p => p = p₀) m Q E := h.startingAt hp₀

theorem chooseServer_first (hcurrent : w₀.current = .absent) :
    Triple (fun p => p.world = w₀) (chooseServer render call)
      (fun server p => p.world = w₀ ∧ (w₀.config = none → server = render.accessConfiguration))
      (Exit render call w₀) := by
  refine Triple.bind (perform_look (untouched_resumes hcurrent rfl)) fun _ => ?_
  refine Triple.get_bind fun p₀ hp₀ => ?_
  rw [hp₀]
  split
  · rename_i text htext
    refine Triple.pure fun p hp => ⟨by rw [hp]; exact hp₀, fun hnone => ?_⟩
    rw [htext] at hnone
    cases hnone
  · exact Triple.pure fun p hp => ⟨by rw [hp]; exact hp₀, fun _ => rfl⟩

theorem probePort_first (hcurrent : w₀.current = .absent) :
    Triple (fun p => p.world = w₀) (probePort call) (fun _ p => p.world = w₀)
      (Exit render call w₀) := by
  refine Triple.bind (perform_look (untouched_resumes hcurrent rfl)) fun _ => ?_
  refine Triple.get_bind fun p₀ hp₀ => ?_
  split
  · rename_i hport
    refine Triple.throw fun _ _ hunhindered => ?_
    rw [hunhindered.port] at hport
    cases hport
  · exact Triple.pure fun p hp => by rw [hp]; exact hp₀

/-- An unfinished release directory of this version is removed, any other is in the way. -/
theorem claimRelease_first (hupgrade : call.upgrade = false) (hcurrent : w₀.current = .absent) :
    Triple (fun p => p.world = w₀) (claimRelease call none)
      (fun release p => Phase call.version .absent none w₀.unit w₀.config p.world ∧
        release = call.version ∧ w₀.marker call.version ≠ some false) (Exit render call w₀) := by
  have hname : releaseName call = call.version := by
    rw [releaseName, hupgrade]
    rfl
  refine Triple.get_bind fun p₀ hp₀ => ?_
  rw [hp₀, hname]
  cases hdir : w₀.releases call.version with
  | none =>
    have hmarker : w₀.marker call.version = none := by
      rw [World.marker, hdir]
      rfl
    refine Triple.pure fun p hp => ⟨?_, rfl, by rw [hmarker]; decide⟩
    rw [hp, hp₀]
    exact ⟨hcurrent, hmarker, rfl, rfl⟩
  | some dir =>
    have hmarker : w₀.marker call.version = some dir.installing := by
      rw [World.marker, hdir]
      rfl
    have hstart : Phase call.version .absent (some dir.installing) w₀.unit w₀.config w₀ :=
      ⟨hcurrent, hmarker, rfl, rfl⟩
    have hremove : Triple (fun p : Progress Bytes => p.world = w₀)
        (perform call .removeIncomplete (removing call .removeIncomplete call.version))
        (fun _ p => Phase call.version .absent none w₀.unit w₀.config p.world)
        (Exit render call w₀) := by
      refine perform_step (I := fun w => w = w₀)
        (J := Phase call.version .absent none w₀.unit w₀.config) (fun p hp => ?_) fun p hp => ?_
      · show Phase _ _ _ _ _ (p.world.removeRelease call.version)
        rw [hp]
        exact hstart.update none
      · show Resumes _ _ _ (p.world.leaveRelease call.version _) _
        rw [hp]
        exact (hstart.update _).restartable_absent
    simp only
    cases hinstalling : dir.installing with
    | true =>
        refine Triple.bind (triple_at (I := fun w => w = w₀) hremove hp₀) fun _ =>
          Triple.pure fun p hp => ⟨hp, rfl, ?_⟩
        rw [hmarker, hinstalling]
        decide
    | false =>
        refine Triple.throw fun _ _ _ => ?_
        rw [hmarker, hinstalling]

theorem prepareRelease_first (hupgrade : call.upgrade = false) (hcurrent : w₀.current = .absent) :
    Triple (fun p => p.world = w₀) (prepareRelease render call none)
      (fun before p => Phase call.version .absent none w₀.unit w₀.config p.world ∧
        FirstEntry render call w₀ before) (Exit render call w₀) := by
  refine Triple.bind (chooseServer_first hcurrent) fun server => Triple.of_and fun hserver => ?_
  refine Triple.bind (probePort_first hcurrent) fun _ => ?_
  refine Triple.bind (perform_look (untouched_resumes hcurrent rfl)) fun _ => ?_
  refine Triple.bind (perform_look (untouched_resumes hcurrent rfl)) fun _ => ?_
  refine Triple.bind (claimRelease_first hupgrade hcurrent) fun release => ?_
  refine Triple.of_and fun ⟨hrelease, hclaimed⟩ => ?_
  have hread : ∀ w, Phase call.version .absent none w₀.unit w₀.config w →
      Resumes render call w₀ w .readOldUnit := fun w hw =>
    iff_of_true (hw.restartable_absent.mpr (by decide)) trivial
  refine Triple.bind (perform_look hread) fun _ => ?_
  refine Triple.get_bind fun p₀ hp₀ => Triple.pure fun p hp => ⟨by rw [hp]; exact hp₀, ?_⟩
  exact ⟨rfl, hrelease, hclaimed, hserver⟩

theorem prepare_first (hupgrade : call.upgrade = false) (hcurrent : w₀.current = .absent) :
    Triple (fun p => p.world = w₀) (prepare render call)
      (fun result p => Phase call.version .absent none w₀.unit w₀.config p.world ∧
        ∃ before, result = .inr before ∧ FirstEntry render call w₀ before)
      (Exit render call w₀) := by
  refine Triple.bind (perform_look (untouched_resumes hcurrent rfl)) fun _ => ?_
  refine Triple.bind (perform_look (untouched_resumes hcurrent rfl)) fun _ => ?_
  refine Triple.bind (perform_look (untouched_resumes hcurrent rfl)) fun _ => ?_
  refine Triple.bind (perform_look (untouched_resumes hcurrent rfl)) fun _ => ?_
  have htarget : Triple (fun p => p.world = w₀) (currentTarget call)
      (fun oldRelease p => p.world = w₀ ∧ oldRelease = none) (Exit render call w₀) := by
    refine Triple.bind (perform_look (untouched_resumes hcurrent rfl)) fun _ => ?_
    refine Triple.get_bind fun p₀ hp₀ => ?_
    rw [hp₀, hcurrent]
    exact Triple.pure fun p hp => ⟨by rw [hp]; exact hp₀, rfl⟩
  refine Triple.bind htarget fun oldRelease => Triple.of_and fun hold => ?_
  rw [hold, hupgrade]
  refine Triple.bind (prepareRelease_first hupgrade hcurrent) fun before => ?_
  exact Triple.pure fun p hp => ⟨hp.1, before, rfl, hp.2⟩

/-! ### The `try` block -/

/-- An operation while the release directory has its marker. -/
theorem perform_marked {config : Option Bytes} {op : Operation}
    {effect : OpOutcome → Progress Bytes → Progress Bytes}
    (hkeep : ∀ outcome p, Phase call.version .absent (some true) w₀.unit config p.world →
      Phase call.version .absent (some true) w₀.unit config (effect outcome p).world)
    (hsafe : call.SafeAt render w₀ op) :
    Triple (fun p => Phase call.version .absent (some true) w₀.unit config p.world)
      (perform call op effect)
      (fun _ p => Phase call.version .absent (some true) w₀.unit config p.world)
      (Exit render call w₀) :=
  perform_step (hkeep .done) fun p hp =>
    iff_of_true ((hkeep .killed p hp).restartable_absent.mpr (by decide)) hsafe

theorem changing_keeps {I : World Bytes → Prop} {op : Operation} {f : World Bytes → World Bytes}
    (hf : ∀ w, I w → I (f w)) (outcome : OpOutcome) (p : Progress Bytes) (hp : I p.world) :
    I (changing call op f outcome p).world := by
  rcases changing_cases call op f outcome p with h | h
  · rw [h]
    exact hf p.world hp
  · rw [h]
    exact hp

theorem replacing_keeps {I : World Bytes → Prop} {op : Operation} {f : World Bytes → World Bytes}
    (hf : ∀ w, I w → I (f w)) (outcome : OpOutcome) (p : Progress Bytes) (hp : I p.world) :
    I (replacing call op f outcome p).world := by
  cases outcome with
  | done => exact hf p.world hp
  | raised => exact hp
  | killed =>
      cases happlied : call.applied op with
      | true =>
          simp only [replacing, happlied]
          exact hf p.world hp
      | false =>
          simp only [replacing, happlied]
          exact hp

/-- Filling the directory keeps its marker. -/
theorem fill_marked {config : Option Bytes} {f : ReleaseDir Bytes → ReleaseDir Bytes}
    (hf : ∀ dir, (f dir).installing = dir.installing) (w : World Bytes)
    (h : Phase call.version .absent (some true) w₀.unit config w) :
    Phase call.version .absent (some true) w₀.unit config (w.editRelease call.version f) :=
  h.edit f (g := id) hf

theorem perform_fill {config : Option Bytes} {op : Operation}
    {f : ReleaseDir Bytes → ReleaseDir Bytes} (hf : ∀ dir, (f dir).installing = dir.installing)
    (hsafe : call.SafeAt render w₀ op) :
    Triple (fun p => Phase call.version .absent (some true) w₀.unit config p.world)
      (perform call op (changing call op (·.editRelease call.version f)))
      (fun _ p => Phase call.version .absent (some true) w₀.unit config p.world)
      (Exit render call w₀) :=
  perform_marked (changing_keeps (fill_marked hf)) hsafe

/-- The directory is made, and then marked. -/
theorem makeStaging_first :
    Triple (fun p => Phase call.version .absent none w₀.unit w₀.config p.world)
      (perform call .makeStaging (replacing call .makeStaging (·.makeRelease call.version)))
      (fun _ p => Phase call.version .absent (some false) w₀.unit w₀.config p.world)
      (Exit render call w₀) := by
  refine perform_replace (fun w hw => hw.update (some {})) (fun happlied w hw => ?_)
    fun happlied w hw => ?_
  · refine iff_of_false (fun h => hw.restartable_absent.mp h rfl) fun h => ?_
    rw [Call.SafeAt, happlied] at h
    cases h
  · exact iff_of_true (hw.restartable_absent.mpr (by decide)) happlied

theorem writeMarker_first :
    Triple (fun p => Phase call.version .absent (some false) w₀.unit w₀.config p.world)
      (perform call .writeMarker
        (changing call .writeMarker (·.editRelease call.version ({ · with installing := true }))))
      (fun _ p => Phase call.version .absent (some true) w₀.unit w₀.config p.world)
      (Exit render call w₀) := by
  refine perform_change (fun w hw => hw.edit _ (g := fun _ => true) fun _ => rfl)
    (fun happlied w hw => ?_) fun happlied w hw => ?_
  · exact iff_of_true (hw.restartable_absent.mpr (by decide)) happlied
  · refine iff_of_false (fun h => hw.restartable_absent.mp h rfl) fun h => ?_
    rw [Call.SafeAt, happlied] at h
    cases h

theorem stageRelease_first (hentry : FirstEntry render call w₀ before) :
    Triple (fun p => Phase call.version .absent none w₀.unit w₀.config p.world)
      (stageRelease render call before)
      (fun _ p => Phase call.version .absent (some true) w₀.unit (some (configText render w₀))
        p.world) (Exit render call w₀) := by
  unfold stageRelease
  simp only [hentry.release]
  refine Triple.bind makeStaging_first fun _ => ?_
  refine Triple.bind writeMarker_first fun _ => ?_
  refine Triple.bind (perform_fill (fun _ => rfl) trivial) fun _ => ?_
  refine Triple.bind (perform_fill (fun _ => rfl) trivial) fun _ => ?_
  refine Triple.bind (perform_fill (fun _ => rfl) trivial) fun _ => ?_
  refine Triple.bind (perform_fill (fun _ => rfl) trivial) fun _ => ?_
  refine Triple.bind (perform_fill (fun _ => rfl) trivial) fun _ => ?_
  refine Triple.bind (perform_marked (fun _ _ hp => hp) trivial) fun _ => ?_
  refine Triple.bind (perform_marked (replacing_keeps (fill_marked fun _ => rfl)) trivial)
    fun _ => ?_
  refine Triple.get_bind fun p₀ hp₀ => ?_
  rw [hp₀.config]
  split
  · rename_i hmissing
    have hmissing : w₀.config = none := Option.isNone_iff_eq_none.mp hmissing
    have hwrite : Triple
        (fun p => Phase call.version .absent (some true) w₀.unit w₀.config p.world)
        (perform call .writeConfig (changing call .writeConfig
          ({ · with config := some (render.renderConfig before.server) })))
        (fun _ p => Phase call.version .absent (some true) w₀.unit (some (configText render w₀))
          p.world) (Exit render call w₀) := by
      refine perform_change (fun w hw => ⟨hw.current, hw.marker, hw.unit, ?_⟩)
        (fun _ w hw => ?_) fun _ w hw => ?_
      · show some (render.renderConfig before.server) = _
        rw [hentry.server hmissing, configText, hmissing]
        rfl
      · exact iff_of_true (hw.restartable_absent.mpr (by decide)) trivial
      · exact iff_of_true (hw.restartable_absent.mpr (by decide)) trivial
    exact triple_at hwrite hp₀
  · rename_i hfound
    refine Triple.pure fun p hp => ?_
    rw [hp]
    refine ⟨hp₀.current, hp₀.marker, hp₀.unit, hp₀.config.trans ?_⟩
    rw [configText]
    cases hconfig : w₀.config with
    | none =>
        rw [hconfig] at hfound
        exact absurd rfl hfound
    | some text => rfl

theorem stopOldService_first {config : Option Bytes} (hentry : FirstEntry render call w₀ before) :
    Triple (fun p => Phase call.version .absent (some true) w₀.unit config p.world)
      (stopOldService call before)
      (fun _ p => Phase call.version .absent (some true) w₀.unit config p.world)
      (Exit render call w₀) := by
  unfold stopOldService
  rw [hentry.oldRelease]
  exact Triple.pure fun _ hp => hp

theorem saveDatabase_first (sqlite : Sqlite Bytes Content) {config : Option Bytes} :
    Triple (fun p => Phase call.version .absent (some true) w₀.unit config p.world)
      (saveDatabase sqlite call)
      (fun _ p => Phase call.version .absent (some true) w₀.unit config p.world)
      (Exit render call w₀) := by
  refine perform_marked (fun outcome p hp => ?_) trivial
  cases outcome with
  | done => exact hp.same rfl rfl rfl rfl
  | raised =>
      simp only
      split
      · exact hp.same rfl rfl rfl rfl
      · exact hp
  | killed =>
      simp only
      split
      · exact hp.same rfl rfl rfl rfl
      · exact hp

theorem migrateDatabase_first {config : Option Bytes} (hentry : FirstEntry render call w₀ before) :
    Triple (fun p => Phase call.version .absent (some true) w₀.unit config p.world)
      (migrateDatabase call before)
      (fun _ p => Phase call.version .absent (some true) w₀.unit config p.world)
      (Exit render call w₀) := by
  unfold migrateDatabase
  simp only [hentry.release]
  let Migrated := fun w : World Bytes => Phase call.version .absent (some true) w₀.unit config w ∧
    ∃ database, w.database = call.migrated database
  have hmigrate : Triple
      (fun p => Phase call.version .absent (some true) w₀.unit config p.world)
      (perform call .migrate fun outcome p =>
        { p with world := { (p.world.editRelease call.version
            fun dir => { dir with migrated := dir.migrated || outcome == .done }) with
          database := call.migrated p.world.database } })
      (fun _ p => Migrated p.world) (Exit render call w₀) := by
    have hedit : ∀ (outcome : OpOutcome) (w : World Bytes),
        Phase call.version .absent (some true) w₀.unit config w →
        Phase call.version .absent (some true) w₀.unit config
          { (w.editRelease call.version
              fun dir => { dir with migrated := dir.migrated || outcome == .done }) with
            database := call.migrated w.database } := by
      intro outcome w hw
      have hfilled := fill_marked
        (f := fun dir => { dir with migrated := dir.migrated || outcome == .done })
        (fun _ => rfl) w hw
      exact hfilled.same rfl rfl rfl rfl
    refine perform_step (J := Migrated) (fun p hp => ⟨hedit .done p.world hp, _, rfl⟩)
      fun p hp => ?_
    exact iff_of_true ((hedit .killed p.world hp).restartable_absent.mpr (by decide)) trivial
  refine Triple.bind hmigrate fun _ => Triple.get_bind fun p₀ hp₀ => ?_
  obtain ⟨hphase, database, hdatabase⟩ := hp₀
  have hchmod : Triple (fun p => Phase call.version .absent (some true) w₀.unit config p.world)
      (perform call .chmodDatabase looking)
      (fun _ p => Phase call.version .absent (some true) w₀.unit config p.world)
      (Exit render call w₀) := perform_marked (fun _ _ hp => hp) trivial
  refine triple_at (I := Phase call.version .absent (some true) w₀.unit config) ?_ hphase
  split
  · rename_i hmissing
    refine Triple.bind (Triple.throw fun _ _ hunhindered => ?_) fun _ => hchmod
    have hfound := hunhindered.migrated database
    rw [← hdatabase, Option.isSome_iff_ne_none] at hfound
    exact absurd (Option.isNone_iff_eq_none.mp hmissing) hfound
  · exact hchmod

/-! ### After `current` is moved -/

/-- Everything is in place. -/
def InPlace (render : Rendering Bytes Server) (call : Call Bytes) (w₀ w : World Bytes) : Prop :=
  Phase call.version (.link call.version) (some false) (some (unitText render w₀))
    (some (configText render w₀)) w

theorem InPlace.restartable {w : World Bytes} (h : InPlace render call w₀ w) :
    Restartable render call.version w := Phase.restartable_moved h |>.mpr rfl

theorem perform_placed {op : Operation} {effect : OpOutcome → Progress Bytes → Progress Bytes}
    (hkeep : ∀ outcome p, InPlace render call w₀ p.world →
      InPlace render call w₀ (effect outcome p).world)
    (hsafe : call.SafeAt render w₀ op) :
    Triple (fun p => InPlace render call w₀ p.world) (perform call op effect)
      (fun _ p => InPlace render call w₀ p.world) (Exit render call w₀) :=
  perform_step (hkeep .done) fun p hp => iff_of_true (hkeep .killed p hp).restartable hsafe

theorem unlinkMarker_first :
    Triple (fun p => Phase call.version .absent (some true) w₀.unit
        (some (configText render w₀)) p.world)
      (perform call .unlinkMarker (replacing call .unlinkMarker
        (·.editRelease call.version ({ · with installing := false }))))
      (fun _ p => Phase call.version .absent (some false) w₀.unit (some (configText render w₀))
        p.world) (Exit render call w₀) := by
  refine perform_replace (fun w hw => hw.edit _ (g := fun _ => false) fun _ => rfl)
    (fun happlied w hw => ?_) fun happlied w hw => ?_
  · refine iff_of_false (fun h => hw.restartable_absent.mp h rfl) fun h => ?_
    rw [Call.SafeAt, happlied] at h
    cases h
  · exact iff_of_true (hw.restartable_absent.mpr (by decide)) happlied

theorem switchCurrent_first :
    Triple (fun p => Phase call.version .absent (some false) w₀.unit
        (some (configText render w₀)) p.world)
      (perform call .switchCurrent
        (replacing call .switchCurrent ({ · with current := .link call.version })))
      (fun _ p => Phase call.version (.link call.version) (some false) w₀.unit
        (some (configText render w₀)) p.world) (Exit render call w₀) := by
  refine perform_replace (fun w hw => ⟨rfl, hw.marker, hw.unit, hw.config⟩)
    (fun happlied w hw => ?_) fun happlied w hw => ?_
  · exact hw.restartable_moved.trans ⟨fun h => ⟨happlied, h⟩, fun h => h.2⟩
  · refine iff_of_false (fun h => hw.restartable_absent.mp h rfl) fun h => ?_
    rw [Call.SafeAt, happlied] at h
    cases h.1

theorem writeUnit_first :
    Triple (fun p => Phase call.version (.link call.version) (some false) w₀.unit
        (some (configText render w₀)) p.world)
      (perform call .writeUnit
        (changing call .writeUnit ({ · with unit := some (unitText render w₀) })))
      (fun _ p => InPlace render call w₀ p.world) (Exit render call w₀) := by
  refine perform_change (J := InPlace render call w₀)
    (fun w hw => ⟨hw.current, hw.marker, rfl, hw.config⟩)
    (fun happlied w hw => ?_) fun happlied w hw => ?_
  · exact iff_of_true hw.restartable (Or.inl happlied)
  · refine hw.restartable_moved.trans ⟨Or.inr, fun h => h.resolve_left fun hmade => ?_⟩
    rw [happlied] at hmade
    cases hmade

theorem activate_first (hentry : FirstEntry render call w₀ before) :
    Triple (fun p => Phase call.version .absent (some true) w₀.unit
        (some (configText render w₀)) p.world)
      (activate render call before) (fun _ p => InPlace render call w₀ p.world)
      (Exit render call w₀) := by
  unfold activate
  simp only [hentry.release]
  let Moved := Phase call.version (.link call.version) (some false) w₀.unit
    (some (configText render w₀))
  refine Triple.bind unlinkMarker_first fun _ => Triple.bind switchCurrent_first fun _ => ?_
  refine Triple.bind (R := fun _ p => Moved p.world) (Triple.modify fun p hp => hp) fun _ => ?_
  have hread : ∀ w, Moved w → Resumes render call w₀ w .readActiveServer :=
    fun w hw => hw.restartable_moved
  refine Triple.bind (perform_look hread) fun _ => Triple.get_bind fun p₀ hp₀ => ?_
  rw [hp₀.config]
  refine triple_at (I := Moved) ?_ hp₀
  refine Triple.bind writeUnit_first fun _ => ?_
  exact perform_placed (changing_keeps fun w hw => hw.same rfl rfl rfl rfl) trivial

theorem lingerService_first :
    Triple (fun p => InPlace render call w₀ p.world) (lingerService call)
      (fun _ p => InPlace render call w₀ p.world) (Exit render call w₀) := by
  unfold lingerService
  split
  · refine Triple.bind (perform_placed (fun _ _ hp => hp) trivial) fun _ => ?_
    split
    · exact perform_placed (changing_keeps fun w hw => hw.same rfl rfl rfl rfl) trivial
    · exact Triple.pure fun _ hp => hp
  · exact Triple.pure fun _ hp => hp

theorem startService_first :
    Triple (fun p => InPlace render call w₀ p.world) (startService call)
      (fun _ p => InPlace render call w₀ p.world) (Exit render call w₀) := by
  unfold startService
  split
  · refine Triple.bind
      (perform_placed (changing_keeps fun w hw => hw.same rfl rfl rfl rfl) trivial) fun _ => ?_
    exact perform_placed (fun _ p hp => hp.same rfl rfl rfl rfl) trivial
  · exact Triple.pure fun _ hp => hp

theorem tryBlock_first (sqlite : Sqlite Bytes Content) (hentry : FirstEntry render call w₀ before) :
    Triple (fun p => Phase call.version .absent none w₀.unit w₀.config p.world)
      (tryBlock sqlite render call before) (fun _ p => InPlace render call w₀ p.world)
      (Exit render call w₀) := by
  unfold tryBlock
  refine Triple.bind (stageRelease_first hentry) fun _ => ?_
  refine Triple.bind (stopOldService_first hentry) fun _ => ?_
  refine Triple.bind (saveDatabase_first sqlite) fun _ => ?_
  refine Triple.bind (migrateDatabase_first hentry) fun _ => ?_
  refine Triple.bind (activate_first hentry) fun _ => ?_
  refine Triple.bind lingerService_first fun _ => ?_
  exact startService_first

/-! ### The whole call -/

theorem perform_handling (h : Hindered call w₀) {op : Operation} (hop : op ∈ rollbackOperations)
    (effect : OpOutcome → Progress Bytes → Progress Bytes) :
    Triple (fun _ => True) (perform call op effect) (fun _ _ => True) (Exit render call w₀) :=
  perform_ends (fun _ _ _ => trivial) (fun _ _ _ => h) fun hout _ _ =>
    ⟨hout, fun hforward => absurd hop hforward⟩

theorem bestEffort_handling {op : Operation} (hop : op ∈ rollbackOperations)
    (effect : OpOutcome → Progress Bytes → Progress Bytes) :
    Triple (fun _ => True) (bestEffort call op effect) (fun _ _ => True) (Exit render call w₀) :=
  bestEffort_ends (fun _ _ _ => trivial) fun hout _ _ =>
    ⟨hout, fun hforward => absurd hop hforward⟩

/-- Nothing is asked of the handler's own files. -/
theorem get_handling {α : Type} {k : Progress Bytes → Script Bytes α}
    (h : ∀ p, Triple (fun _ => True) (k p) (fun _ _ => True) (Exit render call w₀)) :
    Triple (fun _ => True) (MonadState.get >>= k) (fun _ _ => True) (Exit render call w₀) :=
  fun p _ => h p p trivial

theorem rollback_handled (h : Hindered call w₀) :
    Triple (fun _ => True) (rollback call before) (fun _ _ => True) (Exit render call w₀) := by
  have hnothing : Triple (fun _ => True) (pure () : Script Bytes Unit) (fun _ _ => True)
      (Exit render call w₀) := Triple.pure fun _ _ => trivial
  have hservice : Triple (fun _ => True) (rollbackService call before) (fun _ _ => True)
      (Exit render call w₀) := by
    unfold rollbackService
    split
    · exact bestEffort_handling (by decide) _
    · exact bestEffort_handling (by decide) _
  have hcurrent : Triple (fun _ => True) (rollbackCurrent call before) (fun _ _ => True)
      (Exit render call w₀) := by
    refine get_handling fun p => ?_
    split
    · exact perform_handling h (by decide) _
    · exact hnothing
  have hdatabase : Triple (fun _ => True) (rollbackDatabase call before) (fun _ _ => True)
      (Exit render call w₀) := by
    refine get_handling fun p => ?_
    split
    · exact perform_handling h (by decide) _
    · split
      · exact perform_handling h (by decide) _
      · exact hnothing
  have hconfig : Triple (fun _ => True) (rollbackConfig call before) (fun _ _ => True)
      (Exit render call w₀) := by
    unfold rollbackConfig
    split
    · exact perform_handling h (by decide) _
    · exact hnothing
  have hremove : ∀ c : Progress Bytes → Bool, Triple (fun _ => True)
      (do
        if c (← get) then
          perform call .rollbackRelease (removing call .rollbackRelease before.release))
      (fun _ _ => True) (Exit render call w₀) := by
    intro c
    refine get_handling fun p => ?_
    split
    · exact perform_handling h (by decide) _
    · exact hnothing
  have hrestart : Triple (fun _ => True) (restartService call) (fun _ _ => True)
      (Exit render call w₀) := by
    refine get_handling fun p => ?_
    split
    · exact bestEffort_handling (by decide) _
    · exact hnothing
  unfold rollback
  refine Triple.bind hservice fun _ => Triple.bind hcurrent fun _ => ?_
  refine Triple.bind (perform_handling h (by decide) _) fun _ => ?_
  refine Triple.bind hdatabase fun _ => Triple.bind hconfig fun _ => ?_
  refine Triple.bind (hremove _) fun _ => Triple.bind (hremove _) fun _ => ?_
  exact Triple.bind (bestEffort_handling (by decide) _) fun _ => hrestart

/-- **Every end of a first install.**  It returns with everything in place, or it is killed, and
where it may be retried is decided by the operation it was killed at; an unhindered one raises
nothing unless a release directory without marker is in the way. -/
theorem firstInstall_exits (sqlite : Sqlite Bytes Content) (render : Rendering Bytes Server)
    (hupgrade : call.upgrade = false) (hcurrent : w₀.current = .absent) :
    Triple (fun p => p.world = w₀) (deploy sqlite render call)
      (fun release p => InPlace render call w₀ p.world ∧ release = call.version ∧
        w₀.marker call.version ≠ some false) (Exit render call w₀) := by
  refine Triple.bind (prepare_first hupgrade hcurrent) fun result => ?_
  refine Triple.of_and fun hresult => ?_
  obtain ⟨before, rfl, hentry⟩ := hresult
  have htry : Triple (fun p => Phase call.version .absent none w₀.unit w₀.config p.world)
      (tryCatch (tryBlock sqlite render call before) (handle call before))
      (fun _ p => InPlace render call w₀ p.world) (Exit render call w₀) := by
    refine Triple.tryCatch (tryBlock_first sqlite hentry) fun halt => ?_
    cases halt with
    | raised op =>
        intro p hindered
        have hindered : Hindered call w₀ := hindered
        have hexit : ∀ q, Exit render call w₀ (.raised op) q := fun _ => hindered
        exact Triple.bind (rollback_handled hindered) (fun _ => Triple.throw fun q _ => hexit q)
          p trivial
    | killed op => exact Triple.throw fun _ hp => hp
  exact Triple.bind htry fun _ => Triple.pure fun p hp => ⟨hp, hentry.release, hentry.claimed⟩

/-! ### The next call -/

theorem perform_done {op : Operation} (h : call.outcome op = .done)
    (effect : OpOutcome → Progress Bytes → Progress Bytes) (p : Progress Bytes) :
    perform call op effect p = .ok () (effect .done p) := by
  simp only [perform, h]
  rfl

/-- A first install over an installation returns at once. -/
theorem deploy_over (sqlite : Sqlite Bytes Content) (render : Rendering Bytes Server)
    {call : Call Bytes} (hupgrade : call.upgrade = false) (hdone : ∀ op, call.outcome op = .done)
    {w : World Bytes} {release : String} (hcurrent : w.current = .link release) :
    deploy sqlite render call { world := w } = .ok release { world := w } := by
  simp only [deploy, prepare, currentTarget, run_bind, perform_done (hdone _), looking, run_get,
    hcurrent, run_pure, hupgrade]

/-- Nothing is installed, or a complete release of this version is. -/
def Between (version : String) (w : World Bytes) : Prop :=
  w.current = .absent ∨ (w.current = .link version ∧
    ∃ dir, w.releases version = some dir ∧ dir.Complete version)

/-- However a first install ends. -/
theorem firstInstall_between (sqlite : Sqlite Bytes Content) (render : Rendering Bytes Server)
    (hupgrade : call.upgrade = false) (hcurrent : w₀.current = .absent) :
    Between call.version (finalState (deploy sqlite render call { world := w₀ })).world := by
  have hname : releaseName call = call.version := by
    rw [releaseName, hupgrade]
    rfl
  have hsound : Sound w₀ := by
    intro old hold
    rw [hcurrent] at hold
    cases hold
  rcases deploy_after sqlite render call hsound with hunmoved | hmoved
  · exact Or.inl (hunmoved.current.trans hcurrent)
  · rw [← hname]
    exact Or.inr ⟨hmoved.current, hname ▸ hmoved.complete⟩

/-- **From which files an unhindered first install gets there.** -/
theorem installs_iff_restartable (sqlite : Sqlite Bytes Content) (render : Rendering Bytes Server)
    {call : Call Bytes} (hupgrade : call.upgrade = false) (hunhindered : call.Unhindered)
    {w : World Bytes} (hw : Between call.version w) :
    Installs sqlite render call w ↔ Restartable render call.version w := by
  rcases hw with hcurrent | ⟨hcurrent, hcomplete⟩
  · have hend := firstInstall_exits sqlite render hupgrade hcurrent { world := w } rfl
    have hmoved := firstInstall_between sqlite render hupgrade hcurrent
    cases hrun : deploy sqlite render call { world := w } with
    | ok release p =>
        rw [hrun] at hend hmoved
        obtain ⟨hplaced, hrelease, hmarker⟩ := hend
        refine iff_of_true ⟨release, p, hrun, ?_⟩ (Or.inl ⟨hcurrent, hmarker⟩)
        rw [hrelease]
        rcases hmoved with habsent | ⟨-, hcomplete⟩
        · rw [finalState, hplaced.current] at habsent
          cases habsent
        · exact ⟨hplaced.current, hcomplete, _, hplaced.config, hplaced.unit⟩
    | error halt p =>
        rw [hrun] at hend
        cases halt with
        | raised op =>
            refine iff_of_false ?_ ?_
            · rintro ⟨release, p', hreturned, -⟩
              rw [hrun] at hreturned
              cases hreturned
            · rintro (⟨-, hmarker⟩ | ⟨hlink, -⟩)
              · exact hmarker (hend hunhindered)
              · rw [hcurrent] at hlink
                cases hlink
        | killed op =>
            have hkilled := hend.1
            rw [hunhindered.done op] at hkilled
            cases hkilled
  · have hrun := deploy_over sqlite render hupgrade hunhindered.done hcurrent
    constructor
    · rintro ⟨release, p, hreturned, hinstalled⟩
      rw [hrun] at hreturned
      cases hreturned
      exact Or.inr ⟨hcurrent, hinstalled.unit⟩
    · rintro (⟨habsent, -⟩ | ⟨-, hunit⟩)
      · rw [hcurrent] at habsent
        cases habsent
      · exact ⟨call.version, { world := w }, hrun, hcurrent, hcomplete, hunit⟩

/-! ### Retries -/

/-- A first install where nothing is installed. -/
structure FirstInstall (call : Call Bytes) (w₀ : World Bytes) : Prop where
  upgrade : call.upgrade = false
  current : w₀.current = .absent

/-- A later first install of the same source version, which nothing hinders. -/
structure Retry (call again : Call Bytes) : Prop where
  upgrade : again.upgrade = false
  version : again.version = call.version
  unhindered : again.Unhindered

/-- **When a killed first install can be retried.**  A first install is killed at an operation of
its forward path.  An unhindered first install of the same version, with any access arguments of
its own, then installs if and only if the first one was killed at a safe place. -/
theorem retry_installs_iff (sqlite : Sqlite Bytes Content) (render : Rendering Bytes Server)
    (call again : Call Bytes) (w₀ : World Bytes) (op : Operation) (p : Progress Bytes)
    (server : Server) (hfirst : FirstInstall call w₀)
    (hkilled : deploy sqlite render call { world := w₀ } = .error (.killed op) p)
    (hforward : op ∉ rollbackOperations) (hretry : Retry call again) :
    Installs sqlite { render with accessConfiguration := server } again p.world ↔
      call.SafeAt render w₀ op := by
  have hbetween := firstInstall_between sqlite render hfirst.upgrade hfirst.current
  have hend := firstInstall_exits sqlite render hfirst.upgrade hfirst.current
    { world := w₀ } rfl
  rw [hkilled] at hbetween hend
  have hresumes : Restartable render call.version p.world ↔ call.SafeAt render w₀ op :=
    hend.2 hforward
  rw [← hresumes, ← hretry.version]
  exact installs_iff_restartable sqlite _ hretry.upgrade hretry.unhindered
    (hretry.version ▸ hbetween)

end

/-! ### An install killed on the way, and one killed before `current` is moved -/

/-- The first install, killed before this operation has had its effect. -/
def killedInstall (op : Operation) : Call String :=
  { firstInstall with outcome := fun o => if o = op then .killed else .done }

theorem firstInstall_retries (op : Operation) : Retry (killedInstall op) firstInstall :=
  ⟨rfl, rfl, fun _ => rfl, rfl, fun _ => rfl⟩

/-- Killed while pip runs, the install is finished by the next call. -/
theorem retry_installs_pip : Installs textSqlite textRendering firstInstall
    (finalState (deploy textSqlite textRendering (killedInstall .pipInstall) {
      world := {} })).world := by
  have hfirst : FirstInstall (killedInstall .pipInstall) {} := ⟨rfl, rfl⟩
  exact (retry_installs_iff textSqlite textRendering (killedInstall .pipInstall) firstInstall {}
    .pipInstall _ textRendering.accessConfiguration hfirst rfl (by decide)
    (firstInstall_retries .pipInstall)).mpr trivial

/-- Killed between dropping the marker and moving `current`, the install cannot be retried. -/
theorem retry_refused_unmarked :
    ¬ ∀ (call again : Call String) (w₀ : World String) (op : Operation) (p : Progress String),
      FirstInstall call w₀ →
      deploy textSqlite textRendering call { world := w₀ } = .error (.killed op) p →
      op ∉ rollbackOperations → Retry call again →
      Installs textSqlite textRendering again p.world := by
  intro h
  have hfirst : FirstInstall (killedInstall .switchCurrent) {} := ⟨rfl, rfl⟩
  have hinstalls := h (killedInstall .switchCurrent) firstInstall {} .switchCurrent _ hfirst rfl
    (by decide) (firstInstall_retries .switchCurrent)
  have hbetween := firstInstall_between textSqlite textRendering hfirst.upgrade hfirst.current
  have hretry := firstInstall_retries .switchCurrent
  rcases (installs_iff_restartable textSqlite textRendering hretry.upgrade hretry.unhindered
    hbetween).mp hinstalls with ⟨-, hmarker⟩ | ⟨hcurrent, -⟩
  · exact hmarker rfl
  · cases hcurrent

end MachineDeck.Deploy

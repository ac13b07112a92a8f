import MachineDeck.InstanceStages

/-!
# Start and stop times

`started_at` and `stopped_at` of the instance row, along runs of `status` and `action`.

* `Chronicle` — what a run has shown of the row: its moments of STOPPED, and when the present
  period of STOPPED began;
* `Describes`, `Described` — the times describe the run, in a state and after a piece;
* `Meets` — what the start and stop times need of a piece;
* `UpToDate` — the invariant of the chronicle;
* `times_described_iff` — the times describe a run if and only if its pieces meet that.
-/

namespace MachineDeck.Lifecycle

open ProgramTriple RecordedRuns

/-! ### The chronicle of a run -/

/-- What a run has shown of the row: the clock whenever it was found STOPPED, and the clock before
and after the piece in which the present period of STOPPED began, if it did not begin with the
registration. -/
structure Chronicle where
  stops : List Time := []
  began : Option (Time × Time) := none
deriving DecidableEq

/-- The chronicle after a piece that takes the registry from `db` to `db'`. -/
def Chronicle.next (applicationId : String) (c : Chronicle) (db : Registry) (_ : Piece)
    (db' : Registry) : Chronicle where
  stops := if db'.rowStatus applicationId = some .stopped then db'.clock :: c.stops else c.stops
  began :=
    if db'.rowStatus applicationId = some .stopped then
      if db.rowStatus applicationId = some .stopped then c.began else some (db.clock, db'.clock)
    else none

/-- A period of STOPPED has the time at which it began; one that began with the registration has
none. -/
def StoppedSince (began : Option (Time × Time)) (stoppedAt : Option Time) : Prop :=
  match began with
  | some (before, after) => ∃ t, stoppedAt = some t ∧ before ≤ t ∧ t < after
  | none => stoppedAt = none

/-- The start and stop times of the row describe the run it is in.  The clock of a registry is its
next reading, so that a reading `t` is later than a registry with clock `m` when `m ≤ t`. -/
structure Describes (applicationId : String) (c : Chronicle) (db : Registry) : Prop where
  running : db.rowStatus applicationId = some .running →
    ∃ t, db.startedAt applicationId = some t ∧ ∀ m ∈ c.stops, m ≤ t
  stopped : db.rowStatus applicationId = some .stopped →
    StoppedSince c.began (db.stoppedAt applicationId)

/-- The times describe the run after a piece, and an observation that only repeats the status has
changed neither. -/
structure Described (applicationId : String) (c : Chronicle) (db : Registry) (piece : Piece)
    (db' : Registry) : Prop where
  describes : Describes applicationId (c.next applicationId db piece db') db'
  repeated : ∀ runtimeState, piece = .recorded runtimeState →
    db.rowStatus applicationId = some runtimeState.status →
      db'.startedAt applicationId = db.startedAt applicationId ∧
        db'.stoppedAt applicationId = db.stoppedAt applicationId

/-- What a piece has to meet: no action begins without a row, RUNNING is not observed on a row with
a start time that is older than a moment of STOPPED, and STOPPED is not observed twice in a row. -/
def Meets (applicationId : String) (c : Chronicle) (db : Registry) : Piece → Prop
  | .quiet => True
  | .begun => (db.rowStatus applicationId).isSome = true
  | .recorded runtimeState =>
    (runtimeState.status = .running →
      ∀ t, db.startedAt applicationId = some t → ∀ m ∈ c.stops, m ≤ t) ∧
    (runtimeState.status = .stopped → db.rowStatus applicationId ≠ some .stopped)

/-! ### What every run keeps -/

/-- A chronicle has no moment that is still to come, and a running row has no stop time. -/
structure UpToDate (applicationId : String) (c : Chronicle) (db : Registry) : Prop where
  stops : ∀ m ∈ c.stops, m ≤ db.clock
  began : ∀ a b, c.began = some (a, b) → b ≤ db.clock
  running : db.rowStatus applicationId = some .running → db.stoppedAt applicationId = none

section
variable {applicationId : String} {c : Chronicle} {db db' : Registry} {piece : Piece}

theorem Chronicle.next_stopped (h : db'.rowStatus applicationId = some .stopped) :
    (c.next applicationId db piece db').stops = db'.clock :: c.stops := if_pos h

theorem Chronicle.next_began (h : db'.rowStatus applicationId = some .stopped)
    (hbefore : db.rowStatus applicationId ≠ some .stopped) :
    (c.next applicationId db piece db').began = some (db.clock, db'.clock) :=
  (if_pos h).trans (if_neg hbefore)

theorem Chronicle.next_still (h : db'.rowStatus applicationId = some .stopped)
    (hbefore : db.rowStatus applicationId = some .stopped) :
    (c.next applicationId db piece db').began = c.began := (if_pos h).trans (if_pos hbefore)

theorem Chronicle.next_active (h : db'.rowStatus applicationId ≠ some .stopped) :
    c.next applicationId db piece db' = { stops := c.stops } := by
  simp only [Chronicle.next, if_neg h]

/-- A running row after an effect has no stop time. -/
theorem Effect.running (h : Effect applicationId db db' piece)
    (hbefore : db.rowStatus applicationId = some .running → db.stoppedAt applicationId = none)
    (hrunning : db'.rowStatus applicationId = some .running) :
    db'.stoppedAt applicationId = none := by
  cases h with
  | kept row =>
      rw [Registry.rowStatus, row] at hrunning
      rw [Registry.stoppedAt, row]
      exact hbefore hrunning
  | moved target status not_running not_stopped started stopped metadata =>
      exact absurd (Option.some.inj (status.symm.trans hrunning)) not_running
  | found row before after =>
      rw [Registry.rowStatus, after, ← before] at hrunning
      rw [Registry.stoppedAt, after, ← before]
      exact hbefore hrunning
  | inserted missing status started stopped metadata => exact stopped
  | observed runtimeState status times metadata later =>
      exact (times.on_running (Option.some.inj (status.symm.trans hrunning))).2

theorem Effect.upToDate (h : Effect applicationId db db' piece) (hclock : db.clock ≤ db'.clock)
    (hc : UpToDate applicationId c db) :
    UpToDate applicationId (c.next applicationId db piece db') db' := by
  refine ⟨?_, ?_, h.running hc.running⟩
  · intro m hm
    by_cases hstopped : db'.rowStatus applicationId = some .stopped
    · rw [Chronicle.next_stopped hstopped] at hm
      rcases List.mem_cons.mp hm with rfl | hm
      · exact le_refl _
      · exact (hc.stops m hm).trans hclock
    · rw [Chronicle.next_active hstopped] at hm
      exact (hc.stops m hm).trans hclock
  · intro a b hbegan
    by_cases hstopped : db'.rowStatus applicationId = some .stopped
    · by_cases hbefore : db.rowStatus applicationId = some .stopped
      · rw [Chronicle.next_still hstopped hbefore] at hbegan
        exact (hc.began a b hbegan).trans hclock
      · rw [Chronicle.next_began hstopped hbefore] at hbegan
        cases hbegan
        exact le_refl _
    · rw [Chronicle.next_active hstopped] at hbegan
      cases hbegan

/-! ### When a piece leaves the times right -/

/-- A row that is kept is described as before. -/
theorem Describes.same_row (h : Describes applicationId c db) (piece : Piece)
    (hrow : db'.instances.lookup applicationId = db.instances.lookup applicationId) :
    Describes applicationId (c.next applicationId db piece db') db' := by
  have hstatus : db'.rowStatus applicationId = db.rowStatus applicationId := by
    rw [Registry.rowStatus, Registry.rowStatus, hrow]
  constructor
  · intro hrunning
    have hactive : db'.rowStatus applicationId ≠ some .stopped := by
      rw [hrunning]
      decide
    rw [Chronicle.next_active hactive, Registry.startedAt, hrow]
    exact h.running (hstatus ▸ hrunning)
  · intro hstopped
    rw [Chronicle.next_still hstopped (hstatus ▸ hstopped), Registry.stoppedAt, hrow]
    exact h.stopped (hstatus ▸ hstopped)

/-- A status without times needs no description. -/
theorem Describes.of_status {status : ApplicationStatus}
    (h : db.rowStatus applicationId = some status) (hrunning : status ≠ .running)
    (hstopped : status ≠ .stopped) : Describes applicationId c db :=
  ⟨fun h' => absurd (Option.some.inj (h.symm.trans h')) hrunning,
    fun h' => absurd (Option.some.inj (h.symm.trans h')) hstopped⟩

/-- An observation of RUNNING. -/
theorem Described.running_iff {runtimeState : RuntimeState} (hrs : runtimeState.status = .running)
    (hc : UpToDate applicationId c db) (hd : Describes applicationId c db)
    (status : db'.rowStatus applicationId = some runtimeState.status)
    (times : Timed runtimeState.status db.clock (db.startedAt applicationId)
      (db.stoppedAt applicationId) (db'.startedAt applicationId) (db'.stoppedAt applicationId)) :
    Described applicationId c db (.recorded runtimeState) db' ↔
      Meets applicationId c db (.recorded runtimeState) := by
  obtain ⟨hstarted, hstopped⟩ := times.on_running hrs
  rw [hrs] at status
  have hactive : db'.rowStatus applicationId ≠ some .stopped := by
    rw [status]
    decide
  have hmoments : (c.next applicationId db (.recorded runtimeState) db').stops = c.stops := by
    rw [Chronicle.next_active hactive]
  constructor
  · intro h
    refine ⟨?_, fun hrs' => ?_⟩
    · intro _ t ht m hm
      obtain ⟨t', ht', hlater⟩ := h.describes.running status
      rw [hstarted, ht, Option.getD_some] at ht'
      cases ht'
      exact hlater m (hmoments ▸ hm)
    · rw [hrs] at hrs'
      cases hrs'
  · intro h
    refine ⟨⟨?_, fun h' => absurd h' hactive⟩, ?_⟩
    · intro _
      refine ⟨_, hstarted, ?_⟩
      intro m hm
      rw [hmoments] at hm
      cases ht : db.startedAt applicationId with
      | none => exact hc.stops m hm
      | some t => exact h.1 hrs t ht m hm
    · intro rs hpiece hbefore
      cases hpiece
      rw [hrs] at hbefore
      obtain ⟨t, ht, -⟩ := hd.running hbefore
      rw [hstarted, hstopped, hc.running hbefore, ht]
      exact ⟨rfl, rfl⟩

/-- An observation of STOPPED. -/
theorem Described.stopped_iff {runtimeState : RuntimeState} (hrs : runtimeState.status = .stopped)
    (hc : UpToDate applicationId c db)
    (status : db'.rowStatus applicationId = some runtimeState.status)
    (times : Timed runtimeState.status db.clock (db.startedAt applicationId)
      (db.stoppedAt applicationId) (db'.startedAt applicationId) (db'.stoppedAt applicationId))
    (hlater : db.clock < db'.clock) :
    Described applicationId c db (.recorded runtimeState) db' ↔
      Meets applicationId c db (.recorded runtimeState) := by
  obtain ⟨-, hstopped⟩ := times.on_stopped hrs
  rw [hrs] at status
  constructor
  · intro h
    refine ⟨fun hrs' => ?_, ?_⟩
    · rw [hrs] at hrs'
      cases hrs'
    · intro _ hbefore
      -- the period began before the piece, the stop time is read in it
      have hsince := h.describes.stopped status
      rw [Chronicle.next_still status hbefore, hstopped] at hsince
      cases hbegan : c.began with
      | none =>
          rw [hbegan] at hsince
          cases hsince
      | some period =>
          obtain ⟨a, b⟩ := period
          rw [hbegan] at hsince
          obtain ⟨t, ht, -, hlt⟩ := hsince
          cases ht
          exact absurd hlt (Nat.not_lt.mpr (hc.began a b hbegan))
  · intro h
    have hbefore := h.2 hrs
    refine ⟨⟨?_, ?_⟩, ?_⟩
    · intro hrunning
      rw [status] at hrunning
      cases hrunning
    · intro _
      rw [Chronicle.next_began status hbefore]
      exact ⟨db.clock, hstopped, le_refl _, hlater⟩
    · intro rs hpiece hbefore'
      cases hpiece
      rw [hrs] at hbefore'
      exact absurd hbefore' hbefore

/-- A piece leaves times that describe the run if and only if it meets what was asked of it. -/
theorem Effect.described_iff (h : Effect applicationId db db' piece) (hc : UpToDate applicationId c db)
    (hd : Describes applicationId c db) :
    Described applicationId c db piece db' ↔ Meets applicationId c db piece := by
  cases h with
  | kept row =>
      refine iff_of_true ⟨hd.same_row _ row, ?_⟩ trivial
      intro runtimeState hpiece
      cases hpiece
  | moved target status not_running not_stopped started stopped metadata =>
      refine iff_of_true ⟨Describes.of_status status not_running not_stopped, ?_⟩ trivial
      intro runtimeState hpiece
      cases hpiece
  | found row before after =>
      refine iff_of_true ⟨hd.same_row _ (after.trans before.symm), ?_⟩ ?_
      · intro runtimeState hpiece
        cases hpiece
      · simp [Meets, Registry.rowStatus, before]
  | inserted missing status started stopped metadata =>
      refine iff_of_false (fun h => ?_) (fun h => ?_)
      · have hsince := h.describes.stopped status
        have hbefore : db.rowStatus applicationId ≠ some .stopped := by
          simp [Registry.rowStatus, missing]
        rw [Chronicle.next_began status hbefore, stopped] at hsince
        obtain ⟨t, ht, -⟩ := hsince
        cases ht
      · simp [Meets, Registry.rowStatus, missing] at h
  | observed runtimeState status times metadata later =>
      by_cases hrunning : runtimeState.status = .running
      · exact Described.running_iff hrunning hc hd status times
      · by_cases hstopped : runtimeState.status = .stopped
        · exact Described.stopped_iff hstopped hc status times (later (.inl hstopped))
        · refine iff_of_true ⟨Describes.of_status status hrunning hstopped, ?_⟩ ?_
          · intro rs hpiece hbefore
            exact times.on_other hrunning hstopped
          · exact ⟨fun h => absurd h hrunning, fun h => absurd h hstopped⟩

end

/-- **When start and stop times describe the run.**  Along a run of calls the times describe the
run after every piece if and only if every piece meets what is asked of it. -/
theorem times_described_iff (applicationId : String) (c : Chronicle) (db : Registry)
    (calls : List (LifecycleService × Call)) (hc : UpToDate applicationId c db)
    (hd : Describes applicationId c db) :
    Along (Chronicle.next applicationId) (Described applicationId) c db
        (runStages applicationId db calls) ↔
      Along (Chronicle.next applicationId) (fun c db piece _ => Meets applicationId c db piece) c db
        (runStages applicationId db calls) := by
  refine Along.congr (I := fun c db => UpToDate applicationId c db ∧ Describes applicationId c db)
    ?_ ?_ (runStages_steps applicationId db calls) ⟨hc, hd⟩
  · intro c db piece db' hinv hstep
    exact hstep.1.described_iff hinv.1 hinv.2
  · intro c db piece db' hinv hstep hdescribed
    exact ⟨hstep.1.upToDate hstep.2 hinv.1, hdescribed.describes⟩

/-! ### A restart -/

/-- The chronicle of a row as it is registered. -/
def Chronicle.start (applicationId : String) (db : Registry) : Chronicle where
  stops := if db.rowStatus applicationId = some .stopped then [db.clock] else []

/-- `ollama` is found running, stopped, and started again. -/
def restarted : List (LifecycleService × Call) :=
  [(ollamaService, .status (answering true .running)),
    (ollamaService, .action "stop" (answering true .stopped)),
    (ollamaService, .action "start" (answering true .running))]

set_option maxRecDepth 8000 in
/-- `ollama` as it is registered. -/
theorem registered_row : registered.rowStatus "ollama" = some .stopped ∧
    registered.startedAt "ollama" = none ∧ registered.stoppedAt "ollama" = none := by decide

theorem registered_upToDate : UpToDate "ollama" (.start "ollama" registered) registered := by
  obtain ⟨hstatus, -, hstopped⟩ := registered_row
  constructor
  · intro m hm
    rw [Chronicle.start, if_pos hstatus] at hm
    rw [List.mem_singleton.mp hm]
  · intro a b hbegan
    cases hbegan
  · intro _
    exact hstopped

theorem registered_describes : Describes "ollama" (.start "ollama" registered) registered := by
  obtain ⟨hstatus, -, hstopped⟩ := registered_row
  constructor
  · intro hrunning
    rw [hstatus] at hrunning
    cases hrunning
  · intro _
    exact hstopped

theorem times_described_iff_restarted :
    Along (Chronicle.next "ollama") (Described "ollama") (.start "ollama" registered) registered
        (runStages "ollama" registered restarted) ↔
      Along (Chronicle.next "ollama") (fun c db piece _ => Meets "ollama" c db piece)
        (.start "ollama" registered) registered (runStages "ollama" registered restarted) :=
  times_described_iff "ollama" _ registered restarted registered_upToDate registered_describes

/-- Where the restart ends. -/
def restartedEnd : Chronicle × Registry :=
  through (Chronicle.next "ollama") (.start "ollama" registered) registered
    (runStages "ollama" registered restarted)

set_option maxRecDepth 8000 in
theorem restartedEnd_row : restartedEnd.2.rowStatus "ollama" = some .running ∧
    restartedEnd.2.startedAt "ollama" = some 3 ∧ 14 ∈ restartedEnd.1.stops := by decide

/-- Not every run of calls is described: a restarted application keeps the time of its first
start. -/
theorem restart_undescribed : ¬ ∀ (applicationId : String) (c : Chronicle) (db : Registry)
    (calls : List (LifecycleService × Call)), UpToDate applicationId c db →
      Describes applicationId c db →
        Along (Chronicle.next applicationId) (Described applicationId) c db
          (runStages applicationId db calls) := by
  intro h
  have hend := Along.through (I := Describes "ollama") (fun _ _ _ _ hdescribed =>
    hdescribed.describes) (h "ollama" _ registered restarted registered_upToDate
      registered_describes) registered_describes
  rw [← restartedEnd] at hend
  obtain ⟨hstatus, hstarted, hstop⟩ := restartedEnd_row
  obtain ⟨t, ht, hlater⟩ := hend.running hstatus
  obtain rfl : t = 3 := Option.some.inj (ht.symm.trans hstarted)
  exact absurd (hlater 14 hstop) (by decide)

end MachineDeck.Lifecycle

import MachineDeck.DeployRollback

/-!
# What a failed upgrade leaves running

The handler of `deploy` stops the service whatever the upgrade had done, and starts it again only
when `stopped_old_service` is set.  That flag is set in the middle of the forward path, after the
`systemctl stop` of the old service, so whether the service survives depends on where the upgrade
failed.

* `beforeStop` — the operations that have to be done before the flag is set;
* `Flagged` — the flag at the moment of the exception, as a condition on the call;
* `rollback_running` — the handler leaves the previous release running exactly when the flag is
  set;
* `failed_upgrade_service_iff` — when a failed upgrade treats the service as it should, and
  `failed_upgrade_stops_service` — an upgrade that does not.
-/

namespace MachineDeck.Deploy

open ProgramTriple

/-- The operations of `stageRelease`; a missing configuration is written among them. -/
def stagingOperations (configExisted : Bool) : List Operation :=
  [.makeStaging, .writeMarker, .copySource, .createVenv, .pipInstall, .writeVersion,
    .writeVerificationUnit, .verifyUnit, .unlinkVerificationUnit]
    ++ (if configExisted then [] else [.writeConfig])

/-- The operations up to the stop of an active service. -/
def beforeStop (configExisted : Bool) : List Operation :=
  stagingOperations configExisted ++ [.queryActive, .stopService]

section
variable {Bytes Content Server : Type}

/-- Every operation up to the stop of the old service is done. -/
def StopReached (call : Call Bytes) (configExisted : Bool) : Prop :=
  ∀ op ∈ beforeStop configExisted, call.outcome op = .done

instance (call : Call Bytes) (configExisted : Bool) : Decidable (StopReached call configExisted) :=
  inferInstanceAs (Decidable (∀ op ∈ beforeStop configExisted, call.outcome op = .done))

/-- `stopped_old_service` says that an active service has been stopped. -/
def Flagged (call : Call Bytes) (w₀ : World Bytes) (p : Progress Bytes) : Prop :=
  p.stoppedOldService = true ↔
    w₀.service.running.isSome = true ∧ StopReached call w₀.config.isSome

variable {before : Before Bytes Server} {w₀ : World Bytes}

/-! ### The flag at the moment of the exception -/

/-- Before the stop: the service is as it was, and the operations so far are done. -/
structure Staging (call : Call Bytes) (w₀ : World Bytes) (ops : List Operation)
    (p : Progress Bytes) : Prop where
  service : p.world.service = w₀.service
  stopped : p.stoppedOldService = false
  done : ∀ op ∈ ops, call.outcome op = .done

/-- While the release is staged, the configuration has not been written either. -/
structure Unconfigured (call : Call Bytes) (w₀ : World Bytes) (ops : List Operation)
    (p : Progress Bytes) : Prop extends Staging call w₀ ops p where
  config : p.world.config = w₀.config

def RaisedFlagged (call : Call Bytes) (w₀ : World Bytes) : Halt → Progress Bytes → Prop :=
  onRaise fun _ p => Flagged call w₀ p

/-- An exception before the stop finds the flag unset, as it should be. -/
theorem flagged_of_raised {call : Call Bytes} {op : Operation} {p : Progress Bytes}
    (hstopped : p.stoppedOldService = false) (hout : call.outcome op = .raised)
    (hmem : op ∈ beforeStop w₀.config.isSome) : Flagged call w₀ p := by
  refine ⟨fun h => ?_, fun h => ?_⟩
  · rw [hstopped] at h
    exact absurd h (by decide)
  · have hdone := h.2 op hmem
    rw [hout] at hdone
    exact absurd hdone (by decide)

theorem changing_stopped (call : Call Bytes) (op : Operation) (f : World Bytes → World Bytes)
    (outcome : OpOutcome) (p : Progress Bytes) :
    (changing call op f outcome p).stoppedOldService = p.stoppedOldService := by
  rcases changing_cases call op f outcome p with h | h
  · rw [h]
  · rw [h]

theorem mem_append_done {call : Call Bytes} {ops : List Operation} {op : Operation}
    (hops : ∀ o ∈ ops, call.outcome o = .done) (hop : call.outcome op = .done) :
    ∀ o ∈ ops ++ [op], call.outcome o = .done := by
  intro o ho
  rcases List.mem_append.mp ho with ho | ho
  · exact hops o ho
  · rw [List.mem_singleton.mp ho]
    exact hop

/-- An effect on neither the service nor the configuration nor, when it raises, the flag. -/
structure Quiet (effect : OpOutcome → Progress Bytes → Progress Bytes) : Prop where
  service : ∀ p, (effect .done p).world.service = p.world.service
  config : ∀ p, (effect .done p).world.config = p.world.config
  stopped : ∀ outcome p, (effect outcome p).stoppedOldService = p.stoppedOldService

theorem quiet_looking : Quiet (@looking Bytes) where
  service _ := rfl
  config _ := rfl
  stopped _ _ := rfl

theorem quiet_edit (call : Call Bytes) (op : Operation) (name : String)
    (f : ReleaseDir Bytes → ReleaseDir Bytes) :
    Quiet (changing call op (·.editRelease name f)) where
  service _ := rfl
  config _ := rfl
  stopped := changing_stopped call op _

theorem quiet_replacing (call : Call Bytes) (op : Operation) {f : World Bytes → World Bytes}
    (hf : ∀ w, (f w).service = w.service ∧ (f w).config = w.config) :
    Quiet (replacing call op f) where
  service p := (hf p.world).1
  config p := (hf p.world).2
  stopped outcome p := by
    cases outcome with
    | done => rfl
    | raised => rfl
    | killed => exact changing_stopped call op f .killed p

theorem staging_step {call : Call Bytes} {ops : List Operation} {op : Operation}
    {effect : OpOutcome → Progress Bytes → Progress Bytes} (hquiet : Quiet effect)
    (hmem : op ∈ beforeStop w₀.config.isSome) :
    Triple (Unconfigured call w₀ ops) (perform call op effect)
      (fun _ => Unconfigured call w₀ (ops ++ [op])) (RaisedFlagged call w₀) := by
  refine perform_triple (fun hout p hp => ?_) (fun hout p hp => ?_)
  · exact ⟨⟨(hquiet.service p).trans hp.service, (hquiet.stopped _ p).trans hp.stopped,
      mem_append_done hp.done hout⟩, (hquiet.config p).trans hp.config⟩
  · exact flagged_of_raised ((hquiet.stopped _ p).trans hp.stopped) hout hmem

theorem mem_beforeStop {op : Operation} {configExisted : Bool}
    (h : op ∈ beforeStop true) : op ∈ beforeStop configExisted := by
  cases configExisted with
  | true => exact h
  | false => revert h; cases op <;> decide

/-- Staging that comes to its end has done all its operations. -/
theorem stageRelease_staged (render : Rendering Bytes Server) (call : Call Bytes) :
    Triple (Unconfigured call w₀ []) (stageRelease render call before)
      (fun _ => Staging call w₀ (stagingOperations w₀.config.isSome)) (RaisedFlagged call w₀) := by
  refine Triple.bind (staging_step (quiet_replacing call _ fun _ => ⟨rfl, rfl⟩)
    (mem_beforeStop (by decide))) fun _ => ?_
  refine Triple.bind (staging_step (quiet_edit call _ _ _)
    (mem_beforeStop (by decide))) fun _ => ?_
  refine Triple.bind (staging_step (quiet_edit call _ _ _)
    (mem_beforeStop (by decide))) fun _ => ?_
  refine Triple.bind (staging_step (quiet_edit call _ _ _)
    (mem_beforeStop (by decide))) fun _ => ?_
  refine Triple.bind (staging_step (quiet_edit call _ _ _)
    (mem_beforeStop (by decide))) fun _ => ?_
  refine Triple.bind (staging_step (quiet_edit call _ _ _)
    (mem_beforeStop (by decide))) fun _ => ?_
  refine Triple.bind (staging_step (quiet_edit call _ _ _)
    (mem_beforeStop (by decide))) fun _ => ?_
  refine Triple.bind (staging_step quiet_looking (mem_beforeStop (by decide))) fun _ => ?_
  refine Triple.bind (staging_step (quiet_replacing call _ fun _ => ⟨rfl, rfl⟩)
    (mem_beforeStop (by decide))) fun _ => ?_
  refine Triple.get_bind fun p₀ hp₀ => ?_
  have hconfig := hp₀.config
  cases hcase : w₀.config with
  | none =>
      rw [hcase] at hconfig
      rw [if_pos (by rw [hconfig]; rfl)]
      refine Triple.startingAt (P := Unconfigured call w₀ _) ?_ hp₀
      refine perform_triple (fun hout p hp => ?_) (fun hout p hp => ?_)
      · exact ⟨hp.service, hp.stopped, mem_append_done hp.done hout⟩
      · refine flagged_of_raised ((changing_stopped call _ _ _ p).trans hp.stopped) hout ?_
        rw [hcase]
        exact (by decide : Operation.writeConfig ∈ beforeStop false)
  | some text =>
      rw [hcase] at hconfig
      rw [if_neg (by rw [hconfig]; simp)]
      exact Triple.pure fun p hp => hp ▸ ⟨hp₀.service, hp₀.stopped, hp₀.done⟩

/-- The flag after the stop: set when the service was active. -/
theorem stopOldService_flagged (call : Call Bytes) (hold : before.oldRelease.isSome = true) :
    Triple (Staging call w₀ (stagingOperations w₀.config.isSome)) (stopOldService call before)
      (fun _ => Flagged call w₀) (RaisedFlagged call w₀) := by
  have hmem : ∀ {op}, op ∈ [Operation.queryActive, .stopService] →
      op ∈ beforeStop w₀.config.isSome := fun h => List.mem_append_right _ h
  unfold stopOldService
  rw [if_pos hold]
  have hquery : Triple (Staging call w₀ (stagingOperations w₀.config.isSome))
      (perform call .queryActive looking)
      (fun _ => Staging call w₀ (stagingOperations w₀.config.isSome ++ [.queryActive]))
      (RaisedFlagged call w₀) :=
    perform_triple (fun hout p hp => ⟨hp.service, hp.stopped, mem_append_done hp.done hout⟩)
      (fun hout p hp => flagged_of_raised hp.stopped hout (hmem (by decide)))
  refine Triple.bind hquery fun _ => ?_
  refine Triple.get_bind fun p₀ hp₀ => ?_
  have hservice := hp₀.service
  split
  · rename_i hactive
    rw [hservice] at hactive
    have hstop : Triple
        (Staging call w₀ (stagingOperations w₀.config.isSome ++ [.queryActive]))
        (perform call .stopService (changing call .stopService (·.stopService)))
        (fun _ _ => StopReached call w₀.config.isSome) (RaisedFlagged call w₀) := by
      refine perform_triple (fun hout p hp => ?_) (fun hout p hp => ?_)
      · intro op hop
        have hop' : op ∈ (stagingOperations w₀.config.isSome ++ [.queryActive]) ++
            [.stopService] := by simpa [beforeStop, List.append_assoc] using hop
        exact mem_append_done hp.done hout op hop'
      · exact flagged_of_raised ((changing_stopped call _ _ _ p).trans hp.stopped) hout
          (hmem (by decide))
    refine Triple.bind (hstop.startingAt hp₀) fun _ => ?_
    exact Triple.modify fun p hp => ⟨fun _ => ⟨hactive, hp⟩, fun _ => rfl⟩
  · rename_i hinactive
    refine Triple.pure fun p hp => ?_
    rw [hp]
    rw [hservice] at hinactive
    refine ⟨fun h => ?_, fun h => absurd h.1 hinactive⟩
    rw [hp₀.stopped] at h
    exact absurd h (by decide)

/-- Nothing after the stop touches the flag. -/
theorem perform_flagged {call : Call Bytes} {op : Operation}
    {effect : OpOutcome → Progress Bytes → Progress Bytes}
    (h : ∀ outcome p, (effect outcome p).stoppedOldService = p.stoppedOldService) :
    Triple (Flagged call w₀) (perform call op effect) (fun _ => Flagged call w₀)
      (RaisedFlagged call w₀) := by
  have hflag : ∀ outcome p, Flagged call w₀ p → Flagged call w₀ (effect outcome p) := by
    intro outcome p hp
    rw [Flagged, h]
    exact hp
  exact perform_triple (fun _ => hflag .done) (fun _ => hflag .raised)

theorem replacing_stopped (call : Call Bytes) (op : Operation) (f : World Bytes → World Bytes)
    (outcome : OpOutcome) (p : Progress Bytes) :
    (replacing call op f outcome p).stoppedOldService = p.stoppedOldService := by
  cases outcome with
  | done => rfl
  | raised => rfl
  | killed => exact changing_stopped call op f .killed p

theorem saveDatabase_flagged (sqlite : Sqlite Bytes Content) (call : Call Bytes) :
    Triple (Flagged call w₀) (saveDatabase sqlite call) (fun _ => Flagged call w₀)
      (RaisedFlagged call w₀) := by
  refine perform_flagged fun outcome p => ?_
  cases outcome with
  | done => rfl
  | raised => dsimp only; split <;> rfl
  | killed => dsimp only; split <;> rfl

theorem migrateDatabase_flagged (call : Call Bytes) :
    Triple (Flagged call w₀) (migrateDatabase call before) (fun _ => Flagged call w₀)
      (RaisedFlagged call w₀) := by
  refine Triple.bind (perform_flagged fun _ _ => rfl) fun _ => ?_
  refine Triple.get_bind fun p₀ hp₀ => Triple.startingAt (P := Flagged call w₀) ?_ hp₀
  have hchmod : Triple (Flagged call w₀) (perform call .chmodDatabase looking)
      (fun _ => Flagged call w₀) (RaisedFlagged call w₀) := perform_flagged fun _ _ => rfl
  split
  · exact Triple.bind (Triple.throw fun _ hp => hp) fun _ => hchmod
  · exact hchmod

theorem activate_flagged (render : Rendering Bytes Server) (call : Call Bytes) :
    Triple (Flagged call w₀) (activate render call before) (fun _ => Flagged call w₀)
      (RaisedFlagged call w₀) := by
  refine Triple.bind (perform_flagged (replacing_stopped call _ _)) fun _ => ?_
  refine Triple.bind (perform_flagged (replacing_stopped call _ _)) fun _ => ?_
  refine Triple.bind (R := fun _ => Flagged call w₀) (Triple.modify fun _ hp => hp) fun _ => ?_
  refine Triple.bind (perform_flagged fun _ _ => rfl) fun _ => ?_
  refine Triple.get_bind fun p₀ hp₀ => Triple.startingAt (P := Flagged call w₀) ?_ hp₀
  have hreload : Triple (Flagged call w₀)
      (perform call .daemonReload (changing call .daemonReload (·.reload)))
      (fun _ => Flagged call w₀) (RaisedFlagged call w₀) :=
    perform_flagged (changing_stopped call .daemonReload (·.reload))
  split
  · exact Triple.bind (Triple.throw fun _ hp => hp) fun _ => hreload
  · exact Triple.bind (perform_flagged (changing_stopped call _ _)) fun _ => hreload

theorem lingerService_flagged (call : Call Bytes) :
    Triple (Flagged call w₀) (lingerService call) (fun _ => Flagged call w₀)
      (RaisedFlagged call w₀) := by
  unfold lingerService
  split
  · refine Triple.bind (perform_flagged fun _ _ => rfl) fun _ => ?_
    split
    · exact perform_flagged (changing_stopped call _ _)
    · exact Triple.pure fun _ hp => hp
  · exact Triple.pure fun _ hp => hp

theorem startService_flagged (call : Call Bytes) :
    Triple (Flagged call w₀) (startService call) (fun _ => Flagged call w₀)
      (RaisedFlagged call w₀) := by
  unfold startService
  split
  · refine Triple.bind (perform_flagged (changing_stopped call _ _)) fun _ => ?_
    exact perform_flagged fun _ _ => rfl
  · exact Triple.pure fun _ hp => hp

/-- **The flag at any exception of an upgrade's `try` block.** -/
theorem tryBlock_flagged (sqlite : Sqlite Bytes Content) (render : Rendering Bytes Server)
    (call : Call Bytes) (hold : before.oldRelease.isSome = true) :
    Triple (Unconfigured call w₀ []) (tryBlock sqlite render call before)
      (fun _ => Flagged call w₀) (RaisedFlagged call w₀) := by
  refine Triple.bind (stageRelease_staged render call) fun _ => ?_
  refine Triple.bind (stopOldService_flagged call hold) fun _ => ?_
  refine Triple.bind (saveDatabase_flagged sqlite call) fun _ => ?_
  refine Triple.bind (migrateDatabase_flagged call) fun _ => ?_
  refine Triple.bind (activate_flagged render call) fun _ => ?_
  refine Triple.bind (lingerService_flagged call) fun _ => ?_
  exact startService_flagged call

/-! ### What the handler leaves running -/

/-- The service is stopped, and the flag is still what it was when the exception was raised. -/
structure Stopped (flag : Bool) (p : Progress Bytes) : Prop where
  running : p.world.service.running = none
  flag : p.stoppedOldService = flag

theorem rollbackService_stopped {flag : Bool} (call : Call Bytes)
    (hstop : call.outcome .rollbackStop = .done) :
    Triple (fun p => p.stoppedOldService = flag) (rollbackService call before)
      (fun _ => Stopped flag) (onRaise fun _ _ => True) := by
  unfold rollbackService
  split
  · refine bestEffort_triple fun p hp => ?_
    rw [hstop]
    exact ⟨rfl, hp⟩
  · refine bestEffort_triple fun p hp => ?_
    rw [hstop]
    exact ⟨rfl, hp⟩

/-- Undoing the files leaves the service stopped. -/
theorem perform_stopped {flag : Bool} {call : Call Bytes} {op : Operation}
    {f : World Bytes → World Bytes} (hf : ∀ w, (f w).service = w.service) :
    Triple (Stopped flag) (perform call op (changing call op f)) (fun _ => Stopped flag)
      (onRaise fun _ _ => True) :=
  perform_changing (fun p hp => ⟨by rw [hf]; exact hp.running, hp.flag⟩) (fun _ _ => trivial)

theorem rollbackCurrent_stopped {flag : Bool} (call : Call Bytes) :
    Triple (Stopped flag) (rollbackCurrent call before) (fun _ => Stopped flag)
      (onRaise fun _ _ => True) := by
  refine Triple.get_bind fun p₀ hp₀ => Triple.startingAt (P := Stopped flag) ?_ hp₀
  split
  · exact perform_replacing (fun p hp => ⟨hp.running, hp.flag⟩) (fun _ _ => trivial)
  · exact Triple.pure fun _ hp => hp

theorem rollbackDatabase_stopped {flag : Bool} (call : Call Bytes) :
    Triple (Stopped flag) (rollbackDatabase call before) (fun _ => Stopped flag)
      (onRaise fun _ _ => True) := by
  refine Triple.get_bind fun p₀ hp₀ => Triple.startingAt (P := Stopped flag) ?_ hp₀
  split
  · exact perform_stopped fun _ => rfl
  · split
    · exact perform_stopped fun _ => rfl
    · exact Triple.pure fun _ hp => hp

theorem removal_stopped {flag : Bool} (call : Call Bytes) (c : Progress Bytes → Bool) :
    Triple (Stopped flag)
      (do
        if c (← get) then
          perform call .rollbackRelease (removing call .rollbackRelease before.release))
      (fun _ => Stopped flag) (onRaise fun _ _ => True) := by
  refine Triple.get_bind fun p₀ hp₀ => Triple.startingAt (P := Stopped flag) ?_ hp₀
  split
  · exact perform_removing (fun p _ hp => ⟨hp.running, hp.flag⟩) (fun _ _ => trivial)
  · exact Triple.pure fun _ hp => hp

/-- **The handler leaves the release behind `current` running exactly when the flag is set.** -/
theorem rollback_running {flag : Bool} (call : Call Bytes)
    (hstop : call.outcome .rollbackStop = .done) (hstart : call.outcome .rollbackStart = .done) :
    Triple (fun p => p.stoppedOldService = flag) (rollback call before)
      (fun _ p => p.world.service.running = if flag then p.world.currentRelease else none)
      (onRaise fun _ _ => True) := by
  refine Triple.bind (rollbackService_stopped call hstop) fun _ => ?_
  refine Triple.bind (rollbackCurrent_stopped call) fun _ => ?_
  refine Triple.bind (perform_stopped fun _ => rfl) fun _ => ?_
  refine Triple.bind (rollbackDatabase_stopped call) fun _ => ?_
  have hconfig : Triple (Stopped flag) (rollbackConfig call before) (fun _ => Stopped flag)
      (onRaise fun _ _ => True) := by
    unfold rollbackConfig
    split
    · exact perform_stopped fun _ => rfl
    · exact Triple.pure fun _ hp => hp
  refine Triple.bind hconfig fun _ => ?_
  refine Triple.bind (removal_stopped call _) fun _ => ?_
  refine Triple.bind (removal_stopped call _) fun _ => ?_
  have hreload : Triple (Stopped flag)
      (bestEffort call .rollbackReload (changing call .rollbackReload (·.reload)))
      (fun _ => Stopped flag) (onRaise fun _ _ => True) := by
    refine bestEffort_triple fun p hp => ?_
    rcases changing_cases call .rollbackReload (·.reload) (call.outcome .rollbackReload) p
      with h | h
    · rw [h]
      exact ⟨hp.running, hp.flag⟩
    · rw [h]
      exact hp
  refine Triple.bind hreload fun _ => ?_
  refine Triple.get_bind fun p₀ hp₀ => Triple.startingAt (P := Stopped flag) ?_ hp₀
  rw [hp₀.flag]
  cases flag with
  | true =>
      refine bestEffort_triple fun p hp => ?_
      rw [hstart]
      rfl
  | false => exact Triple.pure fun p hp => hp.running

/-! ### The whole function -/

/-- **What a failed upgrade leaves running**: the release behind `current` when an active service
was stopped by the forward path, and nothing otherwise. -/
theorem deploy_running (sqlite : Sqlite Bytes Content) (render : Rendering Bytes Server)
    (call : Call Bytes) (w₀ : World Bytes) (hupgrade : call.upgrade = true)
    (hstop : call.outcome .rollbackStop = .done) (hstart : call.outcome .rollbackStart = .done) :
    Triple (fun p => p = { world := w₀ }) (deploy sqlite render call) (fun _ _ => True)
      (onRaise fun op p => op ∈ tryOperations → w₀.currentRelease.isSome = true ∧
        p.world.service.running =
          if w₀.service.running.isSome = true ∧ StopReached call w₀.config.isSome then
            w₀.currentRelease
          else none) := by
  refine deploy_failure (I := fun before p => Undoable sqlite before w₀ p ∧ Flagged call w₀ p)
    sqlite render call w₀ (fun before p₀ hp₀ => ?_) (fun before p₀ hp₀ => ?_)
  · have hundoable : Triple (Unsaved sqlite before w₀) (tryBlock sqlite render call before)
        (fun _ => SavedUndoable sqlite before w₀) (RaisedUndoable sqlite before w₀) :=
      tryBlock_undoable render call hp₀.describes
    have hflagged : Triple (Unconfigured call w₀ []) (tryBlock sqlite render call before)
        (fun _ => Flagged call w₀) (RaisedFlagged call w₀) :=
      tryBlock_flagged sqlite render call (hp₀.installed hupgrade)
    refine (hundoable.and hflagged).conseq
      (fun p h => ⟨h.unsaved, ?_⟩) (fun _ _ _ => trivial) (fun halt p h => ?_)
    · exact ⟨⟨h.preparing.claimed.service, h.preparing.stopped, fun _ ho => by cases ho⟩,
        h.preparing.claimed.config⟩
    · cases halt with
      | raised op => exact h
      | killed op => trivial
  · intro p ⟨hundoable, hflagged⟩
    have hrestores : Triple (Undoable sqlite before w₀) (rollback call before)
        (fun _ p => Restored sqlite before.release w₀ p.world) RaisedOutside :=
      rollback_restores call hp₀.describes
    have hruns : Triple (fun q => q.stoppedOldService = p.stoppedOldService)
        (rollback call before)
        (fun _ q => q.world.service.running =
          if p.stoppedOldService then q.world.currentRelease else none)
        (onRaise fun _ _ => True) := rollback_running call hstop hstart
    refine (hrestores.and hruns).conseq (fun _ h => h) (fun _ q ⟨hrestored, hrunning⟩ => ?_)
      (fun _ _ h => h.1) p ⟨hundoable, rfl⟩
    have hcurrent : q.world.currentRelease = w₀.currentRelease := by
      rw [World.currentRelease, hrestored.current]
      rfl
    refine ⟨?_, ?_⟩
    · obtain ⟨old, hsome⟩ := Option.isSome_iff_exists.mp (hp₀.installed hupgrade)
      have hlink := hp₀.describes.current
      rw [hsome] at hlink
      rw [World.currentRelease, hlink]
      rfl
    · rw [hrunning, hcurrent]
      exact if_congr hflagged rfl rfl

/-- A failed upgrade has treated the service as it should: an active service runs the previous
release again, an inactive one has not been started. -/
structure ServiceKept (w₀ w : World Bytes) : Prop where
  active : w₀.service.running.isSome = true →
    w.service.running.isSome = true ∧ w.service.running = w₀.currentRelease
  inactive : w₀.service.running = none → w.service.running = none

/-- **When a failed upgrade keeps the service.**  If the stop and the start of the handler take
effect, the service is as it should be exactly when it was inactive before the upgrade, or every
operation up to and including its `systemctl stop` was done. -/
theorem failed_upgrade_service_iff (sqlite : Sqlite Bytes Content)
    (render : Rendering Bytes Server) (call : Call Bytes) (w₀ : World Bytes) (op : Operation)
    (final : Progress Bytes) (hupgrade : call.upgrade = true)
    (hrun : deploy sqlite render call { world := w₀ } = .error (.raised op) final)
    (hop : op ∈ tryOperations) (hstop : call.outcome .rollbackStop = .done)
    (hstart : call.outcome .rollbackStart = .done) :
    ServiceKept w₀ final.world ↔
      (w₀.service.running = none ∨ StopReached call w₀.config.isSome) := by
  obtain ⟨hcurrent, hrunning⟩ :=
    (deploy_running sqlite render call w₀ hupgrade hstop hstart).of_error rfl hrun hop
  constructor
  · intro hkept
    cases hbefore : w₀.service.running with
    | none => exact Or.inl rfl
    | some release =>
        right
        have hactive := (hkept.active (by rw [hbefore]; rfl)).1
        by_contra hreached
        rw [hrunning, if_neg fun h => hreached h.2] at hactive
        exact absurd hactive (by decide)
  · intro hcond
    constructor
    · intro hactive
      rcases hcond with hnone | hreached
      · rw [hnone] at hactive
        exact absurd hactive (by decide)
      · rw [hrunning, if_pos ⟨hactive, hreached⟩]
        exact ⟨hcurrent, rfl⟩
    · intro hnone
      rw [hrunning, if_neg]
      rw [hnone]
      exact fun h => absurd h.1 (by decide)

end

theorem failed_upgrade_service_iff_migrate :
    ServiceKept installedWorld
      (finalState (deploy textSqlite textRendering (failingUpgrade .migrate)
        { world := installedWorld })).world :=
  (failed_upgrade_service_iff textSqlite textRendering (failingUpgrade .migrate) installedWorld
    .migrate _ rfl rfl (by decide) rfl rfl).mpr (Or.inr (by decide))

/-- **An upgrade that fails in `pip install` takes the running service down.** -/
theorem failed_upgrade_stops_service :
    ¬ ∀ (call : Call String) (w₀ : World String) (op : Operation) (final : Progress String),
      call.upgrade = true →
      deploy textSqlite textRendering call { world := w₀ } = .error (.raised op) final →
      op ∈ tryOperations → call.outcome .rollbackStop = .done →
      call.outcome .rollbackStart = .done → ServiceKept w₀ final.world := by
  intro h
  have hkept := h (failingUpgrade .pipInstall) installedWorld .pipInstall _ rfl rfl (by decide)
    rfl rfl
  have hdown : (finalState (deploy textSqlite textRendering (failingUpgrade .pipInstall)
      { world := installedWorld })).world.service.running = none := rfl
  exact absurd ((hkept.active rfl).1.symm.trans (congrArg Option.isSome hdown)) (by decide)

end MachineDeck.Deploy

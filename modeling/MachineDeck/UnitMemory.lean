import MachineDeck.GuardedRuns
import MachineDeck.UnitTransaction

/-!
# What systemd runs

Starts and restarts of one application, one after another.  systemd runs the definition that it
has in memory, which is the content of the unit file as long as every rollback is followed by a
reload.

* `Call`, `Session`, `CallStep` — the calls, the host with a report of each call, and one call;
* `ReloadedBack` — the condition on a call, from `UnitTransaction`;
* `started_definition` — in every run of such calls, what a successful call ran is its manifest.
-/

namespace MachineDeck.Systemd

open ProgramTriple GuardedRuns
open MachineDeck.Lifecycle (AdapterResult)

/-- One start or restart of the application, with any manifest for it. -/
structure Call (applicationId : String) where
  adapter : UserSystemdAdapter
  action : UnitAction
  outcomes : Outcomes
  application : adapter.manifest.id = applicationId

/-- What a call reported, and the definition that was run last. -/
structure Report where
  adapter : UserSystemdAdapter
  succeeded : Bool
  ran : Option ByteArray

structure Session where
  host : UnitHost
  reports : List Report := []

/-- One call. -/
def CallStep {applicationId : String} (session : Session) (call : Call applicationId)
    (session' : Session) : Prop :=
  ∃ result host',
    call.adapter.installAndAction call.action call.outcomes session.host = .ok result host' ∧
    session' = { host := host',
                 reports := session.reports ++
                   [{ adapter := call.adapter
                      succeeded := result.succeeded
                      ran := host'.started.getLast?.bind Prod.snd }] }

/-- The condition of `ReloadedBack` on a call. -/
def Call.reloadedBack {applicationId : String} (session : Session) (call : Call applicationId) :
    Prop :=
  ReloadedBack call.adapter call.action call.outcomes session.host

/-- What a call that reported success ran is its manifest. -/
def Report.Faithful (report : Report) : Prop :=
  report.succeeded = true →
    ∃ text, renderUserUnit report.adapter.unitManager.paths report.adapter.manifest = .ok text ∧
      report.ran = some text.toUTF8

/-- systemd's definition of the unit is the content of its file. -/
def InStep (unit : String) (host : UnitHost) : Prop := host.loaded unit = host.content unit

theorem InStep.effect {adapter : UserSystemdAdapter} {action : UnitAction} {outcomes : Outcomes}
    {host host' : UnitHost} {result : AdapterResult} (h : InStep adapter.unit host)
    (hback : ReloadedBack adapter action outcomes host)
    (heffect : CallEffect adapter action outcomes host result host') : InStep adapter.unit host' := by
  have hsame : SameEntries host host' → host'.loaded = host.loaded → InStep adapter.unit host' := by
    intro hentries hloaded
    rw [InStep, hloaded, hentries.content]
    exact h
  cases heffect with
  | failed _ hentries hloaded =>
      rcases hloaded hback with hloaded | hloaded
      · exact hsame hentries hloaded
      · exact congrFun hloaded _
  | ran _ _ _ _ _ hloaded _ =>
      rcases hloaded with ⟨hentries, hloaded⟩ | hloaded
      · exact hsame hentries hloaded
      · exact congrFun hloaded _

/-- The call of a host in step runs its manifest when it succeeds. -/
theorem ran_of_inStep {adapter : UserSystemdAdapter} {action : UnitAction} {outcomes : Outcomes}
    {host host' : UnitHost} {result : AdapterResult} (h' : InStep adapter.unit host')
    (heffect : CallEffect adapter action outcomes host result host')
    (hresult : result.succeeded = true) :
    ∃ text, renderUserUnit adapter.unitManager.paths adapter.manifest = .ok text ∧
      host'.started.getLast?.bind Prod.snd = some text.toUTF8 := by
  cases heffect with
  | failed hfailed _ _ =>
      rw [hresult] at hfailed
      cases hfailed
  | ran hrender _ _ hfile _ _ hstarted =>
      refine ⟨_, hrender, ?_⟩
      rw [hstarted, List.getLast?_concat, Option.bind_some]
      show host'.loaded adapter.unit = _
      rw [h', UnitHost.content, hfile]

/-! ### Calls whose outcome is known -/

section
variable {adapter : UserSystemdAdapter} {action : UnitAction} {outcomes : Outcomes}
  {host : UnitHost} {before : ByteArray} {text : String}

theorem run_previousContent {target : String}
    (hfile : host.entry target = some (.regular before true false))
    (hsize : before.size ≤ maxUnitBytes) :
    UserUnitManager.previousContent target host = .ok (some before) host := by
  have hread := run_readRegular hfile hsize
  show EStateM.tryCatch _ _ host = _
  rw [EStateM.tryCatch]
  simp only [run_bind, hread, run_pure]

/-- A call that finds its own unit in place runs what systemd has in memory. -/
theorem run_inPlace (htrusted : host.trusted = true)
    (hrender : renderUserUnit adapter.unitManager.paths adapter.manifest = .ok text)
    (hfile : host.entry adapter.unit = some (.regular text.toUTF8 true false))
    (hconfirmed : (adapter.confirmed action outcomes).succeeded = true) :
    adapter.installAndAction action outcomes host =
      .ok (adapter.confirmed action outcomes) (host.run adapter.unit) := by
  obtain ⟨runtime, workingDirectory, words, values, hrendered⟩ := renderUserUnit_ok hrender
  have htarget : adapter.unitManager.targetPath adapter.manifest.id true host =
      .ok adapter.unit host := run_targetPath true htrusted hfile
  have hprevious := run_previousContent hfile (validateRenderedUnit_size hrendered.valid)
  have hinstall : adapter.unitManager.install adapter.manifest outcomes host =
      .ok { manager := adapter.unitManager, target := adapter.unit,
            previousContent := some text.toUTF8, changed := false } host := by
    simp only [UserUnitManager.install, run_bind, hrender, lift, run_pure, htarget, hprevious,
      if_true]
  have hattempt : UserSystemdAdapter.attempt
      (adapter.unitManager.install adapter.manifest outcomes) host =
        .ok (.ok { manager := adapter.unitManager, target := adapter.unit,
                   previousContent := some text.toUTF8, changed := false }) host := by
    show EStateM.tryCatch _ _ host = _
    rw [EStateM.tryCatch]
    simp only [run_bind, hinstall, run_pure]
  simp only [UserSystemdAdapter.installAndAction, run_bind, hattempt,
    UserSystemdAdapter.actAndConfirm, runAction, run_modify, run_pure, hconfirmed, if_true,
    confirmed_succeeded adapter action outcomes hconfirmed]

/-- **How systemd and the file get out of step**: the unit is replaced and reloaded, it is not
confirmed, and the reload after rolling back fails. -/
theorem drift (htrusted : host.trusted = true)
    (hrender : renderUserUnit adapter.unitManager.paths adapter.manifest = .ok text)
    (hfile : host.entry adapter.unit = some (.regular before true false))
    (hsize : before.size ≤ maxUnitBytes) (hdiffers : before ≠ text.toUTF8)
    (hverified : outcomes.verify.succeeded = true) (hreloaded : outcomes.reload.succeeded = true)
    (hconfirmed : (adapter.confirmed action outcomes).succeeded = false)
    (hback : outcomes.rollbackReload.succeeded = false) :
    ∃ host', adapter.installAndAction action outcomes host =
        .ok (adapter.confirmed action outcomes) host' ∧
      SameEntries host host' ∧ host'.trusted = true ∧
      host'.loaded adapter.unit = some text.toUTF8 := by
  let receipt : UnitInstallReceipt :=
    { manager := adapter.unitManager, target := adapter.unit, previousContent := some before,
      changed := true }
  have htarget : adapter.unitManager.targetPath adapter.manifest.id true host =
      .ok adapter.unit host := run_targetPath true htrusted hfile
  have hprevious := run_previousContent hfile hsize
  have hcontent : host.content adapter.unit = some before := by
    rw [UnitHost.content, hfile]
  have hreceipt : ReceiptOf host receipt :=
    ⟨visible_unit adapter.manifest.id, .inr ⟨before, hfile⟩, hcontent.symm⟩
  -- the installation cannot be refused
  obtain ⟨found, host₁, hrun, rfl, hinstalled⟩ := Triple.returns
    ((replaceContent_spec adapter.unitManager text.toUTF8 outcomes hreceipt htrusted).conseq
      (fun _ h => h) (fun _ _ h => h) fun _ _ h => by
        rcases h.2 with hfailed | hfailed
        · exact Bool.false_ne_true (hfailed.symm.trans hverified)
        · exact Bool.false_ne_true (hfailed.symm.trans hreloaded))
  have hne : ¬some before = some text.toUTF8 := fun h => hdiffers (Option.some.inj h)
  have hinstall : adapter.unitManager.install adapter.manifest outcomes host =
      .ok receipt host₁ := by
    simp only [UserUnitManager.install, run_bind, hrender, lift, run_pure, htarget, hprevious, hne,
      if_false]
    exact hrun
  have hattempt : UserSystemdAdapter.attempt
      (adapter.unitManager.install adapter.manifest outcomes) host = .ok (.ok receipt) host₁ := by
    show EStateM.tryCatch _ _ host = _
    rw [EStateM.tryCatch]
    simp only [run_bind, hinstall, run_pure]
  -- the rollback restores the file and leaves the memory
  have hundone : Triple (fun host' => host' = host₁)
      (adapter.actAndConfirm action receipt outcomes)
      (fun result host' => result = adapter.confirmed action outcomes ∧ SameEntries host host' ∧
        host'.trusted = true ∧ host'.loaded adapter.unit = some text.toUTF8)
      (fun _ _ => False) := by
    refine Triple.bind (runAction_spec adapter.unit outcomes.action host₁) fun _ =>
      Triple.forEach fun host₂ h₂ => ?_
    obtain ⟨hran, -⟩ := h₂
    have hreplaced : Replaced adapter.unit text.toUTF8 host host₂ := by
      rw [hran]
      exact ⟨hinstalled.replaced.file, hinstalled.replaced.others, hinstalled.replaced.trusted⟩
    dsimp only
    rw [hconfirmed, if_neg Bool.false_ne_true]
    refine undo_spec adapter action outcomes
      (Q := fun host' => SameEntries host host' ∧ host'.trusted = true ∧
        host'.loaded adapter.unit = some text.toUTF8)
      ((rollback_spec _ hreceipt htrusted hreplaced rfl rfl).conseq (fun _ h => h)
        (fun _ host' h' => ?_) (fun _ _ h => h)) fun _ _ h' => h'
    obtain ⟨hentries, htrusted', -, hloaded⟩ := h'
    refine ⟨hentries, htrusted', ?_⟩
    rw [hloaded, if_neg (by rw [hback]; exact Bool.false_ne_true), hran]
    show host₁.loaded adapter.unit = _
    rw [hinstalled.loaded, UnitHost.content, hinstalled.replaced.file]
  obtain ⟨result, host', hundone, rfl, hentries, htrusted', hloaded⟩ := hundone.returns
  refine ⟨host', ?_, hentries, htrusted', hloaded⟩
  simp only [UserSystemdAdapter.installAndAction, run_bind, hattempt]
  exact hundone

end

/-! ### Runs -/

/-- The host is in step, and every call so far ran what it should. -/
structure Sound (applicationId : String) (session : Session) : Prop where
  inStep : InStep ("machinedeck-" ++ applicationId ++ ".service") session.host
  faithful : ∀ report ∈ session.reports, report.Faithful

theorem Sound.step {applicationId : String} {session session' : Session}
    {call : Call applicationId} (h : Sound applicationId session)
    (hback : call.reloadedBack session) (hstep : CallStep session call session') :
    Sound applicationId session' := by
  obtain ⟨adapter, action, outcomes, rfl⟩ := call
  obtain ⟨result, host', hrun, rfl⟩ := hstep
  obtain ⟨result', host'', hrun', heffect⟩ :=
    installAndAction_effect adapter action outcomes session.host
  cases hrun.symm.trans hrun'
  have hinStep : InStep adapter.unit host' := InStep.effect h.inStep hback heffect
  refine ⟨hinStep, fun report hreport => ?_⟩
  rcases List.mem_append.mp hreport with hold | hnew
  · exact h.faithful report hold
  · rw [List.mem_singleton.mp hnew]
    exact fun hresult => ran_of_inStep hinStep heffect hresult

/-- **What starts is what the manifest says**: in a run of calls whose rollbacks are reloaded, a
call that reported success ran the definition that its manifest renders to. -/
theorem started_definition (applicationId : String) (host : UnitHost)
    (hstart : InStep ("machinedeck-" ++ applicationId ++ ".service") host) (session : Session)
    (hrun : Reach (@CallStep applicationId) Call.reloadedBack { host } session) :
    ∀ report ∈ session.reports, report.Faithful := by
  have hsound : Sound applicationId ({ host } : Session) :=
    ⟨hstart, fun report hreport => by cases hreport⟩
  exact (hrun.invariant hsound fun _ _ _ h hback hstep => h.step hback hstep).faithful

/-! ### A restored unit that is not reloaded -/

/-- Tokens longer than every name. -/
def longTokens : Tempfile where
  token _ _ taken := String.ofList (List.replicate (taken.sup String.length + 1) 'x')
  unused start suffix taken hmem := by
    have hle : (start ++ String.ofList (List.replicate (taken.sup String.length + 1) 'x') ++
        suffix).length ≤ taken.sup String.length := Finset.le_sup hmem
    rw [String.length_append, String.length_append, String.length_ofList,
      List.length_replicate] at hle
    omega

def ollamaUnits : UserUnitManager where
  unitDir := "/home/ollama/.config/systemd/user"
  paths := ollamaHost
  tempfile := longTokens

def ollamaAdapter : UserSystemdAdapter where
  manifest := ollama
  runtime := ollamaRuntime
  requiresProcess := rfl
  unitManager := ollamaUnits

def greeterAdapter : UserSystemdAdapter where
  manifest := greeter
  runtime := greeterRuntime
  requiresProcess := rfl
  unitManager := ollamaUnits

/-- A host with this unit file, which has been reloaded. -/
def installedHost (content : ByteArray) : UnitHost where
  directory := some { entries := Finmap.singleton "machinedeck-ollama.service"
                        (.regular content true false) }
  loaded _ := some content

/-- Every command succeeds, and the unit is active. -/
def running : Outcomes where
  verify := { succeeded := true }
  reload := { succeeded := true }
  action := { succeeded := true }
  status := { succeeded := true, message := "ActiveState=active" }
  rollbackReload := { succeeded := true }
  restartAgain := { succeeded := true }

/-- The unit does not start, and the reload after the rollback times out. -/
def stuck : Outcomes :=
  { running with
    action := { succeeded := false }
    rollbackReload := { succeeded := false, message := "Runtime command timed out",
                        errorCode := some "RUNTIME_TIMEOUT" } }

def startOllama : Call "ollama" := ⟨ollamaAdapter, .start, running, rfl⟩

def startGreeter : Call "ollama" := ⟨greeterAdapter, .start, stuck, rfl⟩

section
variable (content : ByteArray)

theorem installedHost_entry :
    (installedHost content).entry "machinedeck-ollama.service" =
      some (.regular content true false) :=
  Finmap.lookup_singleton_eq

theorem installedHost_content :
    (installedHost content).content "machinedeck-ollama.service" = some content := by
  rw [UnitHost.content, installedHost_entry]

theorem installedHost_inStep : InStep "machinedeck-ollama.service" (installedHost content) :=
  (installedHost_content content).symm

end

/-- The start of `ollama` on a host on which its unit is in place. -/
theorem run_startOllama {host : UnitHost} {text : String} (htrusted : host.trusted = true)
    (hrender : renderUserUnit ollamaHost ollama = .ok text)
    (hfile : host.entry "machinedeck-ollama.service" = some (.regular text.toUTF8 true false)) :
    ollamaAdapter.installAndAction .start running host =
      .ok (ollamaAdapter.confirmed .start running) (host.run "machinedeck-ollama.service") := by
  have hconfirmed : (ollamaAdapter.confirmed .start running).succeeded = true := by decide
  exact run_inPlace htrusted hrender hfile hconfirmed

/-- The session after such a start. -/
def afterStart (host : UnitHost) (reports : List Report) : Session where
  host := host.run "machinedeck-ollama.service"
  reports := reports ++
    [{ adapter := ollamaAdapter, succeeded := true,
       ran := host.loaded "machinedeck-ollama.service" }]

theorem callStep_startOllama {session : Session} {text : String}
    (htrusted : session.host.trusted = true)
    (hrender : renderUserUnit ollamaHost ollama = .ok text)
    (hfile : session.host.entry "machinedeck-ollama.service" =
      some (.regular text.toUTF8 true false)) :
    CallStep session startOllama (afterStart session.host session.reports) := by
  have hconfirmed : (ollamaAdapter.confirmed .start running).succeeded = true := by decide
  refine ⟨_, _, run_startOllama htrusted hrender hfile, ?_⟩
  rw [hconfirmed, afterStart]
  have hran : (session.host.run "machinedeck-ollama.service").started.getLast? =
      some ("machinedeck-ollama.service", session.host.loaded "machinedeck-ollama.service") :=
    List.getLast?_concat
  rw [hran]
  rfl

theorem started_definition_ollama :
    ∃ text, renderUserUnit ollamaHost ollama = .ok text ∧
      ∀ report ∈ (afterStart (installedHost text.toUTF8) []).reports, report.Faithful := by
  obtain ⟨text, hrender⟩ : ∃ text, renderUserUnit ollamaHost ollama = .ok text :=
    ⟨_, renderUserUnit_ollama⟩
  have hback : startOllama.reloadedBack { host := installedHost text.toUTF8 } := by
    intro found hfound hdiffers
    cases hrender.symm.trans hfound
    exact absurd (installedHost_content _) hdiffers
  have hstep : CallStep { host := installedHost text.toUTF8 } startOllama
      (afterStart (installedHost text.toUTF8) []) :=
    @callStep_startOllama { host := installedHost text.toUTF8 } text rfl hrender
      (installedHost_entry _)
  exact ⟨text, hrender, started_definition "ollama" _ (installedHost_inStep _) _
    (Reach.next Reach.start hback hstep)⟩

/-- After a rollback whose reload failed, the restored manifest is started without a reload, and
systemd runs the definition that was rolled back. -/
theorem other_definition_started :
    ¬ ∀ host, InStep "machinedeck-ollama.service" host → ∀ session,
      Reach (@CallStep "ollama") Anyhow { host } session →
        ∀ report ∈ session.reports, report.Faithful := by
  intro h
  obtain ⟨before, hbefore⟩ : ∃ text, renderUserUnit ollamaHost ollama = .ok text :=
    ⟨_, renderUserUnit_ollama⟩
  obtain ⟨text, hrender⟩ : ∃ text, renderUserUnit ollamaHost greeter = .ok text :=
    ⟨_, renderUserUnit_greeter⟩
  have hne : before.toUTF8 ≠ text.toUTF8 := by
    intro hsame
    rw [← String.toByteArray_inj.mp hsame] at hrender
    have hcommand := (renderUserUnit_injective rfl rfl hbefore hrender).2.1
    revert hcommand
    decide
  obtain ⟨_, _, _, _, hrendered⟩ := renderUserUnit_ok hbefore
  have hunconfirmed : (greeterAdapter.confirmed .start stuck).succeeded = false := by decide
  have hentry : (installedHost before.toUTF8).entry greeterAdapter.unit =
      some (.regular before.toUTF8 true false) := installedHost_entry _
  have htrusted₀ : (installedHost before.toUTF8).trusted = true := rfl
  -- the greeter is installed, does not start, and is rolled back without a reload
  obtain ⟨host, hrun, hentries, htrusted, hloaded⟩ := @drift greeterAdapter .start stuck _ _ _
    htrusted₀ hrender hentry (validateRenderedUnit_size hrendered.valid) hne rfl rfl hunconfirmed rfl
  have hfile : host.entry "machinedeck-ollama.service" =
      some (.regular before.toUTF8 true false) := (hentries _).trans hentry
  obtain ⟨reports, hfirst⟩ : ∃ reports, CallStep { host := installedHost before.toUTF8 }
      startGreeter { host, reports } := ⟨_, _, _, hrun, rfl⟩
  -- the file is the old one, so the second start reloads nothing
  have hsecond := @callStep_startOllama { host, reports } before htrusted hbefore hfile
  have hreach : Reach (@CallStep "ollama") Anyhow { host := installedHost before.toUTF8 }
      (afterStart host reports) :=
    Reach.next (Reach.next Reach.start trivial hfirst) trivial hsecond
  obtain ⟨found, hfound, hran⟩ := h _ (installedHost_inStep _) _ hreach
    { adapter := ollamaAdapter, succeeded := true,
      ran := host.loaded "machinedeck-ollama.service" }
    (List.mem_append_right _ (List.mem_singleton_self _)) rfl
  cases hbefore.symm.trans hfound
  exact hne (Option.some.inj (hran.symm.trans hloaded))

end MachineDeck.Systemd

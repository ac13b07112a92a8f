import MachineDeck.UnitDecode
import MachineDeck.UnitInstall

/-!
# Unit installation is a transaction

What each step of an installation does to the unit directory and to systemd's definitions, and that
a start or a restart leaves the unit file either rendered or as it was.

* `SameEntries`, `Replaced`, `Idle` — no entry differs; one file has been written; systemd has
  neither run nor read anything;
* `atomicReplace_spec`, `restore_spec`, `install_spec` — the steps;
* `CallEffect` — the ways in which a call can end, `installAndAction_effect`;
* `installation_transactional`.
-/

namespace MachineDeck.Systemd

open ProgramTriple Traversals
open MachineDeck.Lifecycle (AdapterResult)

/-! ### Entries -/

/-- The checks of the directory pass. -/
def UnitHost.trusted (host : UnitHost) : Bool :=
  host.directory.any fun directory =>
    !directory.symlink && directory.owned && !directory.writable

theorem UnitHost.trusted_isSome {host : UnitHost} (h : host.trusted = true) :
    host.directory.isSome = true := by
  cases hdirectory : host.directory with
  | none =>
      rw [UnitHost.trusted, hdirectory] at h
      cases h
  | some directory => rfl

section
variable (host : UnitHost) (name : String)

@[simp] theorem trusted_put (entry : Entry) : (host.put name entry).trusted = host.trusted := by
  cases hdirectory : host.directory <;>
    simp [UnitHost.trusted, UnitHost.put, UnitHost.onEntries, hdirectory]

@[simp] theorem trusted_remove : (host.remove name).trusted = host.trusted := by
  cases hdirectory : host.directory <;>
    simp [UnitHost.trusted, UnitHost.remove, UnitHost.onEntries, hdirectory]

@[simp] theorem loaded_put (entry : Entry) : (host.put name entry).loaded = host.loaded := rfl

@[simp] theorem loaded_remove : (host.remove name).loaded = host.loaded := rfl

@[simp] theorem started_put (entry : Entry) : (host.put name entry).started = host.started := rfl

@[simp] theorem started_remove : (host.remove name).started = host.started := rfl

theorem entry_put_self (entry : Entry) (h : host.directory.isSome = true) :
    (host.put name entry).entry name = some entry := by
  obtain ⟨directory, hdirectory⟩ := Option.isSome_iff_exists.mp h
  simp [UnitHost.entry, UnitHost.put, UnitHost.onEntries, hdirectory]

theorem entry_put_of_ne (entry : Entry) {other : String} (h : other ≠ name) :
    (host.put name entry).entry other = host.entry other := by
  cases hdirectory : host.directory with
  | none => simp [UnitHost.entry, UnitHost.put, UnitHost.onEntries, hdirectory]
  | some directory =>
      simp [UnitHost.entry, UnitHost.put, UnitHost.onEntries, hdirectory,
        Finmap.lookup_insert_of_ne _ h]

theorem entry_remove_self : (host.remove name).entry name = none := by
  cases hdirectory : host.directory with
  | none => simp [UnitHost.entry, UnitHost.remove, UnitHost.onEntries, hdirectory]
  | some directory => simp [UnitHost.entry, UnitHost.remove, UnitHost.onEntries, hdirectory]

theorem entry_remove_of_ne {other : String} (h : other ≠ name) :
    (host.remove name).entry other = host.entry other := by
  cases hdirectory : host.directory with
  | none => simp [UnitHost.entry, UnitHost.remove, UnitHost.onEntries, hdirectory]
  | some directory =>
      simp [UnitHost.entry, UnitHost.remove, UnitHost.onEntries, hdirectory,
        Finmap.lookup_erase_ne h]

theorem entry_of_not_mem_names (h : name ∉ host.names) : host.entry name = none := by
  cases hdirectory : host.directory with
  | none => simp [UnitHost.entry, hdirectory]
  | some directory =>
      simp only [UnitHost.names, hdirectory, Option.map_some, Option.getD_some,
        Finmap.mem_keys] at h
      simpa [UnitHost.entry, hdirectory, Finmap.lookup_eq_none] using h

end

/-! ### Frames -/

/-- No entry differs. -/
def SameEntries (host host' : UnitHost) : Prop := ∀ name, host'.entry name = host.entry name

theorem SameEntries.content {host host' : UnitHost} (h : SameEntries host host') :
    host'.content = host.content := by
  funext name
  rw [UnitHost.content, UnitHost.content, h name]

/-- systemd has neither run nor read anything. -/
structure Idle (host host' : UnitHost) : Prop where
  loaded : host'.loaded = host.loaded
  started : host'.started = host.started

/-- The file has been written, and no other entry differs. -/
structure Replaced (target : String) (content : ByteArray) (host host' : UnitHost) : Prop where
  file : host'.entry target = some (.regular content true false)
  others : ∀ name, name ≠ target → host'.entry name = host.entry name
  trusted : host'.trusted = host.trusted

/-! ### Writing -/

theorem writeTemporary_spec (manager : UserUnitManager) (start suffix : String)
    (content : ByteArray) (host : UnitHost) :
    Triple (fun host' => host' = host) (manager.writeTemporary start suffix content)
      (fun name host' => host.entry name = none ∧ (∃ token, name = start ++ token ++ suffix) ∧
        host' = host.put name (.regular content true false))
      (fun _ _ => False) := by
  intro host' hhost'
  rw [hhost']
  exact ⟨entry_of_not_mem_names host _ (manager.tempfile.unused start suffix host.names),
    ⟨_, rfl⟩, rfl⟩

/-- Names of temporary files begin with a dot. -/
def Visible (target : String) : Prop := ∀ text : String, "." ++ text ≠ target

theorem visible_unit (id : String) : Visible ("machinedeck-" ++ id ++ ".service") := by
  intro text h
  have hchars := congrArg String.toList h
  simp at hchars

theorem Visible.ne {target name text token suffix : String} (h : Visible target)
    (hname : name = "." ++ text ++ "." ++ token ++ suffix) : name ≠ target := by
  rw [hname, String.append_assoc, String.append_assoc, String.append_assoc]
  exact h _

theorem atomicReplace_spec (manager : UserUnitManager) {target : String} (hvisible : Visible target)
    (content : ByteArray) {host : UnitHost} (htrusted : host.trusted = true) :
    Triple (fun host' => host' = host) (manager.atomicReplace target content)
      (fun _ host' => Replaced target content host host' ∧ Idle host host')
      (fun _ _ => False) := by
  refine Triple.bind (writeTemporary_spec manager _ _ content host) fun temporary =>
    Triple.forEach fun host₁ h => ?_
  obtain ⟨hfresh, ⟨token, hname⟩, rfl⟩ := h
  have hne : temporary ≠ target := hvisible.ne hname
  have htemporary : (host.put temporary (.regular content true false)).entry temporary =
      some (.regular content true false) :=
    entry_put_self host temporary _ (UnitHost.trusted_isSome htrusted)
  intro host' hhost'
  rw [hhost']
  let replaced := (host.put temporary (.regular content true false)).replace temporary target
  show Replaced target content host (replaced.remove temporary) ∧ Idle host (replaced.remove temporary)
  simp only [replaced]
  rw [UnitHost.replace, htemporary]
  have hdirectory : ((host.put temporary (.regular content true false)).remove
      temporary).directory.isSome = true := by
    apply UnitHost.trusted_isSome
    rw [trusted_remove, trusted_put, htrusted]
  refine ⟨⟨?_, fun name hname => ?_, by simp⟩, rfl, rfl⟩
  · rw [entry_remove_of_ne _ _ hne.symm, entry_put_self _ _ _ hdirectory]
  · by_cases hsame : name = temporary
    · rw [hsame, entry_remove_self, hfresh]
    · rw [entry_remove_of_ne _ _ hsame, entry_put_of_ne _ _ _ hname,
        entry_remove_of_ne _ _ hsame, entry_put_of_ne _ _ _ hsame]

/-- A staged file is gone when the verification has ended. -/
theorem stage_sameEntries {host : UnitHost} {staged : String} {entry : Entry}
    (hfresh : host.entry staged = none) :
    SameEntries host ((host.put staged entry).remove staged) := by
  intro name
  by_cases hsame : name = staged
  · rw [hsame, entry_remove_self, hfresh]
  · rw [entry_remove_of_ne _ _ hsame, entry_put_of_ne _ _ _ hsame]

/-! ### Rolling back -/

/-- The entry is a file that may be replaced, or missing. -/
def Replaceable (host : UnitHost) (target : String) : Prop :=
  host.entry target = none ∨ ∃ content, host.entry target = some (.regular content true false)

theorem Replaceable.regular {host : UnitHost} {target : String} {content : ByteArray}
    (h : Replaceable host target) (hcontent : host.content target = some content) :
    host.entry target = some (.regular content true false) := by
  rcases h with hmissing | ⟨found, hfile⟩
  · rw [UnitHost.content, hmissing] at hcontent
    cases hcontent
  · rw [UnitHost.content, hfile] at hcontent
    cases hcontent
    exact hfile

/-- A receipt of a host before its unit file was written. -/
structure ReceiptOf (host : UnitHost) (receipt : UnitInstallReceipt) : Prop where
  visible : Visible receipt.target
  replaceable : Replaceable host receipt.target
  previous : receipt.previousContent = host.content receipt.target

section
variable {host host₁ : UnitHost} {receipt : UnitInstallReceipt} {content : ByteArray}

/-- After `restore`, the entries are those before the file was written. -/
theorem restore_spec (h : ReceiptOf host receipt) (htrusted : host.trusted = true)
    (hreplaced : Replaced receipt.target content host host₁) :
    Triple (fun host' => host' = host₁) receipt.restore
      (fun _ host' => SameEntries host host' ∧ Idle host₁ host' ∧ host'.trusted = true)
      (fun _ _ => False) := by
  have htrusted₁ : host₁.trusted = true := hreplaced.trusted.trans htrusted
  unfold UnitInstallReceipt.restore
  rcases h.replaceable with hmissing | ⟨before, hfile⟩
  · have hprevious : receipt.previousContent = none := by
      rw [h.previous, UnitHost.content, hmissing]
    rw [hprevious]
    intro host' hhost'
    rw [hhost']
    show SameEntries host (host₁.remove receipt.target) ∧
      Idle host₁ (host₁.remove receipt.target) ∧ (host₁.remove receipt.target).trusted = true
    rw [trusted_remove]
    refine ⟨fun name => ?_, ⟨rfl, rfl⟩, htrusted₁⟩
    by_cases hsame : name = receipt.target
    · rw [hsame, entry_remove_self, hmissing]
    · rw [entry_remove_of_ne _ _ hsame, hreplaced.others name hsame]
  · have hprevious : receipt.previousContent = some before := by
      rw [h.previous, UnitHost.content, hfile]
    rw [hprevious]
    refine (atomicReplace_spec receipt.manager h.visible before htrusted₁).conseq (fun _ h => h)
      (fun _ host' h' => ?_) (fun _ _ h => h)
    refine ⟨fun name => ?_, h'.2, h'.1.trusted.trans htrusted₁⟩
    by_cases hsame : name = receipt.target
    · rw [hsame, h'.1.file, hfile]
    · rw [h'.1.others name hsame, hreplaced.others name hsame]

/-- What a daemon-reload leaves in memory. -/
def loadedAfter (outcome : AdapterResult) (host : UnitHost) : String → Option ByteArray :=
  if outcome.succeeded then host.content else host.loaded

theorem daemonReload_spec (outcome : AdapterResult) (host : UnitHost) :
    Triple (fun host' => host' = host) (daemonReload outcome)
      (fun result host' => result = outcome ∧ host' = { host with loaded := loadedAfter outcome host })
      (fun _ _ => False) := by
  intro host' hhost'
  rw [hhost']
  refine ⟨rfl, ?_⟩
  rw [loadedAfter]
  cases outcome.succeeded <;> rfl

/-- Rolling back restores the entries and tries to reload. -/
theorem rollback_spec (outcome : AdapterResult) (h : ReceiptOf host receipt)
    (htrusted : host.trusted = true) (hreplaced : Replaced receipt.target content host host₁)
    (hchanged : receipt.changed = true) (hfirst : receipt.rolledBack = false) :
    Triple (fun host' => host' = host₁) (receipt.rollback outcome)
      (fun _ host' => SameEntries host host' ∧ host'.trusted = true ∧
        host'.started = host₁.started ∧
        host'.loaded = if outcome.succeeded then host.content else host₁.loaded)
      (fun _ _ => False) := by
  have hrun : (!receipt.changed || receipt.rolledBack) = false := by
    rw [hchanged, hfirst]
    rfl
  rw [UnitInstallReceipt.rollback, if_neg (by rw [hrun]; exact Bool.false_ne_true)]
  refine Triple.bind (restore_spec h htrusted hreplaced) fun _ => Triple.forEach fun host₂ h₂ => ?_
  refine Triple.bind (daemonReload_spec outcome host₂) fun _ => Triple.pure fun host' h' => ?_
  rw [h'.2]
  obtain ⟨hentries, hidle, htrusted₂⟩ := h₂
  refine ⟨hentries, htrusted₂, hidle.started, ?_⟩
  show loadedAfter outcome host₂ = _
  rw [loadedAfter, hentries.content, hidle.loaded]

/-- **A receipt is rolled back once**: rolling it back again does nothing. -/
theorem rollback_again {receipt receipt' : UnitInstallReceipt} {outcome : AdapterResult}
    {host host' : UnitHost} (hrun : receipt.rollback outcome host = .ok receipt' host')
    (outcome' : AdapterResult) (host'' : UnitHost) :
    receipt'.rollback outcome' host'' = .ok receipt' host'' := by
  have hdone : (!receipt'.changed || receipt'.rolledBack) = true := by
    unfold UnitInstallReceipt.rollback at hrun
    split at hrun
    · rename_i hidle
      cases hrun
      exact hidle
    · cases hrestore : receipt.restore host with
      | error raised host₁ =>
          simp only [run_bind, hrestore] at hrun
          cases hrun
      | ok _ host₁ =>
          simp only [run_bind, hrestore, daemonReload, run_modify, run_pure] at hrun
          cases hrun
          exact Bool.or_true _
  rw [UnitInstallReceipt.rollback, if_pos hdone]
  rfl

end

/-! ### Installing -/

/-- Neither the entries nor systemd's state differ. -/
structure Unchanged (host host' : UnitHost) : Prop where
  entries : SameEntries host host'
  idle : Idle host host'

theorem Unchanged.refl (host : UnitHost) : Unchanged host host := ⟨fun _ => rfl, rfl, rfl⟩

theorem unchanged_mkdir (host : UnitHost) : Unchanged host host.mkdir := by
  refine ⟨fun name => ?_, rfl, rfl⟩
  cases hdirectory : host.directory with
  | none => simp [UnitHost.entry, UnitHost.mkdir, hdirectory]
  | some directory => simp [UnitHost.entry, UnitHost.mkdir, hdirectory]

theorem unitError_ne {message : String} : Raised.unitError message ≠ .fileNotFound := by
  intro h
  cases h

theorem check_spec {condition : Bool} {message : String} {P : UnitHost → Prop}
    {E : Raised → UnitHost → Prop}
    (hraise : ∀ host, P host → condition = false → E (.unitError message) host) :
    Triple P (check condition message) (fun _ host => P host ∧ condition = true) E := by
  intro host hhost
  cases condition with
  | true => exact ⟨hhost, rfl⟩
  | false => exact hraise host hhost rfl

theorem lift_spec {α : Type} (result : Except UnitError α) {P : UnitHost → Prop}
    {E : Raised → UnitHost → Prop} (hraise : ∀ message host, P host → E (.unitError message) host) :
    Triple P (lift result) (fun a host => P host ∧ result = .ok a) E := by
  intro host hhost
  cases result with
  | ok a => exact ⟨hhost, rfl⟩
  | error e => exact hraise _ host hhost

theorem trustedDirectory_spec (manager : UserUnitManager) (create : Bool) (host : UnitHost) :
    Triple (fun host' => host' = host) (manager.trustedDirectory create)
      (fun _ host' => Unchanged host host' ∧ host'.trusted = true)
      (fun raised host' => Unchanged host host' ∧ raised ≠ .fileNotFound) := by
  have hmade : Unchanged host (if create then host.mkdir else host) := by
    cases create with
    | true => exact unchanged_mkdir host
    | false => exact Unchanged.refl host
  refine Triple.bind (R := fun _ => Unchanged host) (Triple.modify fun host' h => ?_) fun _ =>
    Triple.get_bind fun host₁ h₁ => ?_
  · rw [h]
    exact hmade
  · cases hdirectory : host₁.directory with
    | none => exact Triple.throw fun host' h => ⟨h ▸ h₁, unitError_ne⟩
    | some directory =>
        refine Triple.bind (check_spec fun host' h _ => ⟨h ▸ h₁, unitError_ne⟩) fun _ =>
          Triple.bind (check_spec fun host' h _ => ⟨h.1 ▸ h₁, unitError_ne⟩) fun _ =>
          (check_spec fun host' h _ => ⟨h.1.1 ▸ h₁, unitError_ne⟩).conseq (fun _ h => h) (fun _ host' h => ?_)
            fun _ _ h => h
        obtain ⟨⟨⟨hhost', hsymlink⟩, howned⟩, hwritable⟩ := h
        rw [hhost']
        refine ⟨h₁, ?_⟩
        rw [UnitHost.trusted, hdirectory, Option.any_some, hsymlink, howned, hwritable]
        rfl

theorem targetPath_spec (manager : UserUnitManager) (create : Bool)
    (manifest : ApplicationManifest) (host : UnitHost) :
    Triple (fun host' => host' = host) (manager.targetPath manifest.id create)
      (fun target host' => target = "machinedeck-" ++ manifest.id ++ ".service" ∧
        Unchanged host host' ∧ host'.trusted = true ∧ Replaceable host target)
      (fun raised host' => Unchanged host host' ∧ raised ≠ .fileNotFound) := by
  refine Triple.bind (trustedDirectory_spec manager create host) fun _ =>
    Triple.bind (lift_spec _ fun _ _ h => ⟨h.1, unitError_ne⟩) fun target =>
      Triple.get_bind fun host₁ h₁ => ?_
  obtain ⟨⟨hunchanged, htrusted⟩, hname⟩ := h₁
  have htarget : target = "machinedeck-" ++ manifest.id ++ ".service" :=
    Except.ok.inj (hname.symm.trans (unitNameFor_eq manifest.validApplicationId))
  have hentry := hunchanged.entries target
  cases hcase : host₁.entry target with
  | none =>
      refine Triple.pure fun host' h => ?_
      rw [h]
      exact ⟨htarget, hunchanged, htrusted, .inl (hentry.symm.trans hcase)⟩
  | some entry =>
      cases entry with
      | symlink => exact Triple.throw fun host' h => ⟨h ▸ hunchanged, unitError_ne⟩
      | irregular => exact Triple.throw fun host' h => ⟨h ▸ hunchanged, unitError_ne⟩
      | regular content owned writable =>
          refine Triple.bind (check_spec fun host' h _ => ⟨h ▸ hunchanged, unitError_ne⟩) fun _ =>
            Triple.pure fun host' h => ?_
          obtain ⟨hhost', hsafe⟩ := h
          simp only [Bool.and_eq_true, Bool.not_eq_true'] at hsafe
          rw [hsafe.1, hsafe.2] at hcase
          rw [hhost']
          exact ⟨htarget, hunchanged, htrusted, .inr ⟨content, hentry.symm.trans hcase⟩⟩

theorem readRegular_spec {target : String} {host : UnitHost} (h : Replaceable host target) :
    Triple (fun host' => host' = host) (UserUnitManager.readRegular target)
      (fun content host' => host' = host ∧ host.content target = some content)
      (fun raised host' => host' = host ∧
        (raised = .fileNotFound → host.content target = none)) := by
  refine Triple.get_bind fun host₁ h₁ => ?_
  rw [h₁]
  rcases h with hmissing | ⟨content, hfile⟩
  · rw [hmissing]
    refine Triple.throw fun host' h' => ⟨h', fun _ => ?_⟩
    rw [UnitHost.content, hmissing]
  · rw [hfile]
    refine Triple.bind (check_spec fun host' h' _ => ⟨h', fun hraised => by cases hraised⟩) fun _ =>
      Triple.pure fun host' h' => ⟨h'.1, ?_⟩
    rw [UnitHost.content, hfile]

theorem previousContent_spec {target : String} {host : UnitHost} (h : Replaceable host target) :
    Triple (fun host' => host' = host) (UserUnitManager.previousContent target)
      (fun previous host' => host' = host ∧ previous = host.content target)
      (fun raised host' => host' = host ∧ raised ≠ .fileNotFound) := by
  refine Triple.tryCatch (Triple.bind (readRegular_spec h) fun content =>
    Triple.pure fun host' h' => ⟨h'.1, h'.2.symm⟩) fun raised => ?_
  cases raised with
  | unitError message =>
      exact Triple.throw fun host' h' => ⟨h'.1, unitError_ne⟩
  | fileNotFound => exact Triple.pure fun host' h' => ⟨h'.1, (h'.2 rfl).symm⟩

/-- What an installation that raises leaves behind. -/
structure Refused (host : UnitHost) (raised : Raised) (host' : UnitHost) : Prop where
  raised : raised ≠ .fileNotFound
  entries : SameEntries host host'
  started : host'.started = host.started
  loaded : host'.loaded = host.loaded ∨ host'.loaded = host'.content

theorem Unchanged.refused {host host' : UnitHost} (h : Unchanged host host') {raised : Raised}
    (hraised : raised ≠ .fileNotFound) : Refused host raised host' :=
  ⟨hraised, h.entries, h.idle.started, .inl h.idle.loaded⟩

theorem Unchanged.then_refused {host host₁ host' : UnitHost} (h : Unchanged host host₁)
    {raised : Raised} (h' : Refused host₁ raised host') : Refused host raised host' where
  raised := h'.raised
  entries name := (h'.entries name).trans (h.entries name)
  started := h'.started.trans h.idle.started
  loaded := h'.loaded.imp_left fun hloaded => hloaded.trans h.idle.loaded

/-- What an installation that replaces the file leaves behind. -/
structure Installed (outcomes : Outcomes) (target : String) (content : ByteArray)
    (host host' : UnitHost) : Prop where
  replaced : Replaced target content host host'
  started : host'.started = host.started
  loaded : host'.loaded = host'.content
  verified : outcomes.verify.succeeded = true
  reloaded : outcomes.reload.succeeded = true

theorem reloadInstalled_spec {host host₁ : UnitHost} {receipt : UnitInstallReceipt}
    {content : ByteArray} (outcomes : Outcomes) (h : ReceiptOf host receipt)
    (htrusted : host.trusted = true) (hreplaced : Replaced receipt.target content host host₁)
    (hidle : Idle host host₁) (hchanged : receipt.changed = true)
    (hfirst : receipt.rolledBack = false) (hverified : outcomes.verify.succeeded = true) :
    Triple (fun host' => host' = host₁) (UserUnitManager.reloadInstalled receipt outcomes)
      (fun found host' => found = receipt ∧ Installed outcomes receipt.target content host host')
      (fun raised host' => Refused host raised host' ∧ outcomes.reload.succeeded = false) := by
  refine Triple.bind ((daemonReload_spec outcomes.reload host₁).conseq (fun _ h => h)
    (fun _ _ h => h) (fun _ _ h => h.elim)) fun result => Triple.forEach fun host₂ h₂ => ?_
  obtain ⟨rfl, hhost₂⟩ := h₂
  cases hreload : outcomes.reload.succeeded with
  | true =>
      rw [loadedAfter, hreload, if_pos rfl] at hhost₂
      rw [if_pos rfl]
      refine Triple.pure fun host' h' => ⟨rfl, ?_⟩
      rw [h', hhost₂]
      exact ⟨⟨hreplaced.file, hreplaced.others, hreplaced.trusted⟩, hidle.started, rfl, hverified,
        hreload⟩
  | false =>
      rw [loadedAfter, hreload, if_neg Bool.false_ne_true] at hhost₂
      rw [if_neg Bool.false_ne_true]
      have hreplaced₂ : Replaced receipt.target content host host₂ := by
        rw [hhost₂]
        exact ⟨hreplaced.file, hreplaced.others, hreplaced.trusted⟩
      refine Triple.bind ((rollback_spec outcomes.rollbackReload h htrusted hreplaced₂ hchanged
        hfirst).conseq (fun _ h => h) (fun _ _ h => h) (fun _ _ h => h.elim)) fun _ =>
        Triple.throw fun host' h' => ?_
      obtain ⟨hentries, -, hstarted, hloaded⟩ := h'
      refine ⟨⟨unitError_ne, hentries, ?_, ?_⟩, rfl⟩
      · rw [hstarted, hhost₂]
        exact hidle.started
      · rw [hloaded]
        split
        · exact .inr hentries.content.symm
        · rw [hhost₂]
          exact .inl hidle.loaded

theorem replaceContent_spec (manager : UserUnitManager) {target : String}
    {previous : Option ByteArray} (newContent : ByteArray) (outcomes : Outcomes) {host : UnitHost}
    (h : ReceiptOf host { manager, target, previousContent := previous, changed := true })
    (htrusted : host.trusted = true) :
    Triple (fun host' => host' = host)
      (manager.replaceContent target previous newContent outcomes)
      (fun receipt host' =>
        receipt = { manager, target, previousContent := previous, changed := true } ∧
          Installed outcomes target newContent host host')
      (fun raised host' => Refused host raised host' ∧
        (outcomes.verify.succeeded = false ∨ outcomes.reload.succeeded = false)) := by
  refine Triple.bind ((writeTemporary_spec manager _ _ newContent host).conseq (fun _ h => h)
    (fun _ _ h => h) (fun _ _ h => h.elim)) fun staged => Triple.forEach fun host₁ h₁ => ?_
  obtain ⟨hfresh, -, hhost₁⟩ := h₁
  let host₂ := (host.put staged (.regular newContent true false)).remove staged
  have hstaged : SameEntries host host₂ := stage_sameEntries hfresh
  have hidle : Idle host host₂ := ⟨rfl, rfl⟩
  have htrusted₂ : host₂.trusted = true := by
    rw [trusted_remove, trusted_put, htrusted]
  have hrefused : Refused host (.unitError (orElse outcomes.verify.message
      "systemd-analyze rejected the rendered unit")) host₂ :=
    Unchanged.refused ⟨hstaged, hidle⟩ unitError_ne
  refine Triple.bind (R := fun _ host' => host' = host₂) (Triple.modify fun host' h' => ?_)
    fun _ => ?_
  · rw [h', hhost₁]
  refine Triple.bind (check_spec fun host' h' hraised => ⟨h' ▸ hrefused, .inl hraised⟩) fun _ =>
    Triple.forEach fun host' h' => ?_
  obtain ⟨hhost', hverified⟩ := h'
  rw [hhost']
  refine Triple.bind ((atomicReplace_spec manager h.visible newContent htrusted₂).conseq
    (fun _ h => h) (fun _ _ h => h) (fun _ _ h => h.elim)) fun _ => Triple.forEach fun host₃ h₃ => ?_
  obtain ⟨hreplaced, hidle₃⟩ := h₃
  have hreplaced₀ : Replaced target newContent host host₃ :=
    ⟨hreplaced.file, fun name hname => (hreplaced.others name hname).trans (hstaged name),
      hreplaced.trusted.trans (htrusted₂.trans htrusted.symm)⟩
  exact (reloadInstalled_spec outcomes h htrusted hreplaced₀ ⟨hidle₃.loaded, hidle₃.started⟩ rfl
    rfl hverified).conseq (fun _ h => h) (fun _ _ h => h) fun _ _ h => ⟨h.1, .inr h.2⟩

/-- How an installation that returns ends: the file had the content already, or it was replaced
and reloaded. -/
inductive InstallEffect (manager : UserUnitManager) (outcomes : Outcomes) (target : String)
    (content : ByteArray) (host : UnitHost) : UnitInstallReceipt → UnitHost → Prop where
  | present {host' : UnitHost} {previous : Option ByteArray}
      (hfile : host.entry target = some (.regular content true false))
      (hunchanged : Unchanged host host') (htrusted : host'.trusted = true) :
      InstallEffect manager outcomes target content host
        { manager, target, previousContent := previous, changed := false } host'
  | replaced {host₁ host' : UnitHost} {previous : Option ByteArray}
      (hunchanged : Unchanged host host₁) (htrusted : host₁.trusted = true)
      (hreceipt : ReceiptOf host₁ { manager, target, previousContent := previous, changed := true })
      (hdiffers : host.content target ≠ some content)
      (hinstalled : Installed outcomes target content host₁ host') :
      InstallEffect manager outcomes target content host
        { manager, target, previousContent := previous, changed := true } host'

theorem install_spec (manager : UserUnitManager) (manifest : ApplicationManifest)
    (outcomes : Outcomes) (host : UnitHost) :
    Triple (fun host' => host' = host) (manager.install manifest outcomes)
      (fun receipt host' => ∃ text, renderUserUnit manager.paths manifest = .ok text ∧
        InstallEffect manager outcomes ("machinedeck-" ++ manifest.id ++ ".service") text.toUTF8
          host receipt host')
      (Refused host) := by
  refine Triple.bind (lift_spec _ fun _ host' h => h ▸ (Unchanged.refl host).refused unitError_ne)
    fun text => Triple.forEach fun host₀ h₀ => ?_
  obtain ⟨rfl, hrender⟩ := h₀
  refine Triple.bind ((targetPath_spec manager true manifest host₀).conseq (fun _ h => h)
    (fun _ _ h => h) (fun _ _ h => h.1.refused h.2)) fun target => Triple.forEach fun host₁ h₁ => ?_
  obtain ⟨rfl, hunchanged, htrusted, hreplaceable⟩ := h₁
  have hreplaceable₁ : Replaceable host₁ ("machinedeck-" ++ manifest.id ++ ".service") := by
    rw [Replaceable, hunchanged.entries]
    exact hreplaceable
  refine Triple.bind ((previousContent_spec hreplaceable₁).conseq (fun _ h => h) (fun _ _ h => h)
    (fun _ _ h => h.1 ▸ hunchanged.refused h.2)) fun previous => Triple.forEach fun host₂ h₂ => ?_
  obtain ⟨rfl, hprevious⟩ := h₂
  have hcontent := hunchanged.entries.content
  split
  · rename_i hpresent
    refine Triple.pure fun host' h' => ⟨text, hrender, ?_⟩
    rw [h']
    rw [hprevious, hcontent] at hpresent
    exact InstallEffect.present (hreplaceable.regular hpresent) hunchanged htrusted
  · rename_i hdiffers
    have hreceipt : ReceiptOf host₂
        { manager, target := "machinedeck-" ++ manifest.id ++ ".service",
          previousContent := previous, changed := true } :=
      ⟨visible_unit manifest.id, hreplaceable₁, hprevious⟩
    refine (replaceContent_spec manager text.toUTF8 outcomes hreceipt htrusted).conseq
      (fun _ h => h) (fun receipt host' h' => ⟨text, hrender, ?_⟩) (fun raised host' h' => ?_)
    · obtain ⟨rfl, hinstalled⟩ := h'
      refine InstallEffect.replaced hunchanged htrusted hreceipt ?_ hinstalled
      rw [← hcontent, ← hprevious]
      exact hdiffers
    · exact hunchanged.then_refused h'.1

/-! ### Starting and restarting -/

section
variable (adapter : UserSystemdAdapter) (action : UnitAction) (outcomes : Outcomes)

/-- The condition under which systemd and the unit file agree after the call: when the file is
replaced and reloaded and the unit is not confirmed, the reload after rolling back succeeds. -/
def ReloadedBack (host : UnitHost) : Prop :=
  ∀ text, renderUserUnit adapter.unitManager.paths adapter.manifest = .ok text →
    host.content adapter.unit ≠ some text.toUTF8 → outcomes.verify.succeeded = true →
    outcomes.reload.succeeded = true → (adapter.confirmed action outcomes).succeeded = false →
    outcomes.rollbackReload.succeeded = true

/-- The ways in which a start or a restart ends. -/
inductive CallEffect (host : UnitHost) : AdapterResult → UnitHost → Prop where
  | failed {result : AdapterResult} {host' : UnitHost} (hresult : result.succeeded = false)
      (hentries : SameEntries host host')
      (hloaded : ReloadedBack adapter action outcomes host →
        host'.loaded = host.loaded ∨ host'.loaded = host'.content) :
      CallEffect host result host'
  | ran {result : AdapterResult} {host' : UnitHost} {text : String}
      (hrender : renderUserUnit adapter.unitManager.paths adapter.manifest = .ok text)
      (hresult : result.succeeded = true) (htrusted : host'.trusted = true)
      (hfile : host'.entry adapter.unit = some (.regular text.toUTF8 true false))
      (hothers : ∀ name, name ≠ adapter.unit → host'.entry name = host.entry name)
      (hloaded : SameEntries host host' ∧ host'.loaded = host.loaded ∨
        host'.loaded = host'.content)
      (hstarted : host'.started = host.started ++ [(adapter.unit, host'.loaded adapter.unit)]) :
      CallEffect host result host'

/-- Running a unit changes neither files nor definitions. -/
theorem runAction_spec (unit : String) (outcome : AdapterResult) (host : UnitHost) :
    Triple (fun host' => host' = host) (runAction unit outcome)
      (fun _ host' => host' = { host with started := host'.started } ∧
        (outcome.succeeded = true → host' = host.run unit))
      (fun _ _ => False) := by
  intro host' hhost'
  rw [hhost']
  show (if outcome.succeeded = true then host.run unit else host) = _ ∧ _
  cases outcome.succeeded with
  | true => exact ⟨rfl, fun _ => rfl⟩
  | false => exact ⟨rfl, fun h => by cases h⟩

theorem confirmed_succeeded (h : (adapter.confirmed action outcomes).succeeded = true) :
    outcomes.action.succeeded = true := by
  unfold UserSystemdAdapter.confirmed at h
  split at h
  · rename_i hsucceeded
    exact hsucceeded
  · exact h

/-- The end of a call whose unit was not confirmed: whatever the rollback leaves stays. -/
theorem undo_spec {receipt : UnitInstallReceipt} {result : AdapterResult} {host₁ : UnitHost}
    {Q : UnitHost → Prop}
    (hrollback : Triple (fun host' => host' = host₁) (receipt.rollback outcomes.rollbackReload)
      (fun _ host' => Q host') (fun _ _ => False))
    (hframe : ∀ host' started, Q host' → Q { host' with started := started }) :
    Triple (fun host' => host' = host₁)
      (do
        let _ ← receipt.rollback outcomes.rollbackReload
        if action = .restart ∧ receipt.changed = true ∧
            receipt.previousContent.isSome = true then
          let _ ← runAction adapter.unit outcomes.restartAgain
          return result
        else return result)
      (fun result' host' => result' = result ∧ Q host') (fun _ _ => False) := by
  refine Triple.bind hrollback fun _ => ?_
  split
  · refine Triple.forEach fun host₂ h₂ => ?_
    refine Triple.bind (runAction_spec adapter.unit outcomes.restartAgain host₂) fun _ =>
      Triple.pure fun host' h' => ⟨rfl, ?_⟩
    rw [h'.1]
    exact hframe host₂ _ h₂
  · exact Triple.pure fun host' h' => ⟨rfl, h'⟩

/-- A receipt that changed nothing is not rolled back. -/
theorem rollback_unchanged {receipt : UnitInstallReceipt} (h : receipt.changed = false)
    (outcome : AdapterResult) (host : UnitHost) :
    Triple (fun host' => host' = host) (receipt.rollback outcome)
      (fun _ host' => host' = host) (fun _ _ => False) := by
  rw [UnitInstallReceipt.rollback, if_pos (by rw [h]; rfl)]
  exact Triple.pure fun _ h' => h'

theorem actAndConfirm_spec {text : String} {host host₁ : UnitHost} {receipt : UnitInstallReceipt}
    (hrender : renderUserUnit adapter.unitManager.paths adapter.manifest = .ok text)
    (h : InstallEffect adapter.unitManager outcomes adapter.unit text.toUTF8 host receipt host₁) :
    Triple (fun host' => host' = host₁) (adapter.actAndConfirm action receipt outcomes)
      (CallEffect adapter action outcomes host) (fun _ _ => False) := by
  refine Triple.bind (runAction_spec adapter.unit outcomes.action host₁) fun _ =>
    Triple.forEach fun host₂ h₂ => ?_
  obtain ⟨hran, hstarted⟩ := h₂
  dsimp only
  split
  · rename_i hresult
    refine Triple.pure fun host' h' => ?_
    rw [h', hstarted (confirmed_succeeded adapter action outcomes hresult)]
    cases h with
    | present hfile hunchanged htrusted =>
        exact CallEffect.ran hrender hresult htrusted
          ((hunchanged.entries adapter.unit).trans hfile) (fun name _ => hunchanged.entries name)
          (.inl ⟨hunchanged.entries, hunchanged.idle.loaded⟩)
          (congrArg (· ++ _) hunchanged.idle.started)
    | replaced hunchanged htrusted hreceipt hdiffers hinstalled =>
        refine CallEffect.ran hrender hresult (hinstalled.replaced.trusted.trans htrusted)
          hinstalled.replaced.file (fun name hname => ?_) (.inr hinstalled.loaded)
          (congrArg (· ++ _) (hinstalled.started.trans hunchanged.idle.started))
        exact (hinstalled.replaced.others name hname).trans (hunchanged.entries name)
  · rename_i hresult
    have hfailed := Bool.eq_false_iff.mpr hresult
    cases h with
    | present hfile hunchanged htrusted =>
        refine (undo_spec adapter action outcomes
          (Q := fun host' => SameEntries host host' ∧ host'.loaded = host.loaded)
          ((rollback_unchanged rfl _ host₂).conseq (fun _ h => h) (fun _ host' h' => ?_)
            (fun _ _ h => h)) fun _ _ h' => h').conseq (fun _ h => h) (fun result host' h' => ?_)
          (fun _ _ h => h)
        · rw [h', hran]
          exact ⟨hunchanged.entries, hunchanged.idle.loaded⟩
        · obtain ⟨rfl, hentries, hloaded⟩ := h'
          exact CallEffect.failed hfailed hentries fun _ => .inl hloaded
    | @replaced before _ previous hunchanged htrusted hreceipt hdiffers hinstalled =>
        have hreplaced : Replaced adapter.unit text.toUTF8 before host₂ := by
          rw [hran]
          exact ⟨hinstalled.replaced.file, hinstalled.replaced.others,
            hinstalled.replaced.trusted⟩
        refine (undo_spec adapter action outcomes
          (Q := fun host' => SameEntries host host' ∧
            (outcomes.rollbackReload.succeeded = true → host'.loaded = host'.content))
          ((rollback_spec _ hreceipt htrusted hreplaced rfl rfl).conseq (fun _ h => h)
            (fun _ host' h' => ?_) (fun _ _ h => h)) fun _ _ h' => h').conseq (fun _ h => h)
          (fun result host' h' => ?_) (fun _ _ h => h)
        · obtain ⟨hentries, -, -, hloaded⟩ := h'
          refine ⟨fun name => (hentries name).trans (hunchanged.entries name), fun hsucceeded => ?_⟩
          rw [hloaded, if_pos hsucceeded, hentries.content]
        · obtain ⟨rfl, hentries, hloaded⟩ := h'
          exact CallEffect.failed hfailed hentries fun hback =>
            .inr (hloaded (hback text hrender hdiffers hinstalled.verified hinstalled.reloaded
              hfailed))

/-- What the attempt to install leaves. -/
def Attempted (host : UnitHost) : Except String UnitInstallReceipt → UnitHost → Prop
  | .error _, host' => Refused host (.unitError "") host'
  | .ok receipt, host' =>
    ∃ text, renderUserUnit adapter.unitManager.paths adapter.manifest = .ok text ∧
      InstallEffect adapter.unitManager outcomes adapter.unit text.toUTF8 host receipt host'

/-- Every start and every restart returns, and ends in one of these ways. -/
theorem installAndAction_effect (host : UnitHost) :
    ∃ result host', adapter.installAndAction action outcomes host = .ok result host' ∧
      CallEffect adapter action outcomes host result host' := by
  apply Triple.returns
  refine Triple.bind (R := Attempted adapter outcomes host)
    (Triple.tryCatch (Triple.bind (install_spec adapter.unitManager adapter.manifest outcomes host)
      fun receipt => Triple.pure fun host' h' => h') fun raised => ?_) fun found => ?_
  · cases raised with
    | unitError message =>
        refine Triple.pure fun host' h' => ?_
        show Refused host (.unitError "") host'
        exact ⟨unitError_ne, h'.entries, h'.started, h'.loaded⟩
    | fileNotFound => exact Triple.throw fun host' h' => h'.raised rfl
  · cases found with
    | error message =>
        refine Triple.pure fun host' h' => ?_
        exact CallEffect.failed rfl h'.entries fun _ => h'.loaded
    | ok receipt =>
        refine Triple.forEach fun host₁ h₁ => ?_
        obtain ⟨text, hrender, hinstall⟩ := h₁
        exact actAndConfirm_spec adapter action outcomes hrender hinstall

end

/-! ### The transaction -/

theorem validateRenderedUnit_size {text : String} (h : validateRenderedUnit text = .ok ()) :
    text.toUTF8.size ≤ maxUnitBytes := by
  obtain ⟨_, hsize, -⟩ := bind_ok h
  exact of_decide_eq_true (require_ok hsize)

section
variable {manager : UserUnitManager} {manifest : ApplicationManifest} {host : UnitHost}
  {content : ByteArray}

theorem run_targetPath (create : Bool) (htrusted : host.trusted = true)
    (hfile : host.entry ("machinedeck-" ++ manifest.id ++ ".service") =
      some (.regular content true false)) :
    manager.targetPath manifest.id create host =
      .ok ("machinedeck-" ++ manifest.id ++ ".service") host := by
  obtain ⟨directory, hdirectory⟩ :=
    Option.isSome_iff_exists.mp (UnitHost.trusted_isSome htrusted)
  rw [UnitHost.trusted, hdirectory, Option.any_some, Bool.and_eq_true, Bool.and_eq_true,
    Bool.not_eq_true', Bool.not_eq_true'] at htrusted
  obtain ⟨⟨hsymlink, howned⟩, hwritable⟩ := htrusted
  have hname := unitNameFor_eq manifest.validApplicationId
  have hmkdir : host.mkdir = host := by
    rw [UnitHost.mkdir, hdirectory, Option.getD_some, ← hdirectory]
  cases create with
  | true =>
      simp [UserUnitManager.targetPath, UserUnitManager.trustedDirectory, hmkdir, hdirectory, check,
        hsymlink, howned, hwritable, hname, lift, hfile]
  | false =>
      simp [UserUnitManager.targetPath, UserUnitManager.trustedDirectory, hdirectory, check,
        hsymlink, howned, hwritable, hname, lift, hfile]

theorem run_readRegular {target : String}
    (hfile : host.entry target = some (.regular content true false))
    (hsize : content.size ≤ maxUnitBytes) :
    UserUnitManager.readRegular target host = .ok content host := by
  simp only [UserUnitManager.readRegular, run_bind, run_get, hfile, check, hsize, decide_true,
    if_true, run_pure]

end

/-- A trusted file with the rendered content is consistent. -/
theorem consistency_match {manager : UserUnitManager} {manifest : ApplicationManifest}
    {text : String} {host : UnitHost} (hrender : renderUserUnit manager.paths manifest = .ok text)
    (htrusted : host.trusted = true)
    (hfile : host.entry ("machinedeck-" ++ manifest.id ++ ".service") =
      some (.regular text.toUTF8 true false)) :
    manager.consistency manifest host =
      .ok { applicationId := manifest.id,
            unitName := some ("machinedeck-" ++ manifest.id ++ ".service"),
            status := .isMatch } host := by
  obtain ⟨runtime, workingDirectory, words, values, hrendered⟩ := renderUserUnit_ok hrender
  have hread := run_readRegular hfile (validateRenderedUnit_size hrendered.valid)
  have htarget : manager.targetPath manifest.id false host =
      .ok ("machinedeck-" ++ manifest.id ++ ".service") host := run_targetPath false htrusted hfile
  have hname := unitNameFor_eq manifest.validApplicationId
  obtain ⟨directory, hdirectory⟩ :=
    Option.isSome_iff_exists.mp (UnitHost.trusted_isSome htrusted)
  have hcompare : manager.compareUnit manifest ("machinedeck-" ++ manifest.id ++ ".service") host =
      .ok { applicationId := manifest.id,
            unitName := some ("machinedeck-" ++ manifest.id ++ ".service"),
            status := .isMatch } host := by
    simp [UserUnitManager.compareUnit, UserUnitManager.compareContent, hrender, lift, hdirectory,
      htarget, hfile, hread]
  unfold UserUnitManager.consistency
  rw [hrendered.process]
  simp only [run_bind, hname, lift, run_pure]
  show EStateM.tryCatch _ _ host = _
  rw [EStateM.tryCatch, hcompare]

/-- **Installation is a transaction**: a start or a restart reports success with the rendered unit
in place and consistent, or failure with the unit file as it was; every other entry is as it was,
and a receipt that has been rolled back is not rolled back again. -/
theorem installation_transactional (adapter : UserSystemdAdapter) (action : UnitAction)
    (outcomes : Outcomes) (host : UnitHost) :
    (∃ result host', adapter.installAndAction action outcomes host = .ok result host' ∧
      (∀ name, name ≠ adapter.unit → host'.entry name = host.entry name) ∧
      ((result.succeeded = true ∧
          (∃ text, renderUserUnit adapter.unitManager.paths adapter.manifest = .ok text ∧
            host'.content adapter.unit = some text.toUTF8) ∧
          ∃ consistency, adapter.unitManager.consistency adapter.manifest host' =
            .ok consistency host' ∧ consistency.status = .isMatch) ∨
        (result.succeeded = false ∧ host'.entry adapter.unit = host.entry adapter.unit))) ∧
    ∀ (receipt receipt' : UnitInstallReceipt) (outcome outcome' : AdapterResult)
      (host host' host'' : UnitHost), receipt.rollback outcome host = .ok receipt' host' →
        receipt'.rollback outcome' host'' = .ok receipt' host'' := by
  obtain ⟨result, host', hrun, heffect⟩ := installAndAction_effect adapter action outcomes host
  refine ⟨⟨result, host', hrun, ?_, ?_⟩, fun receipt receipt' outcome outcome' _ _ host'' h =>
    rollback_again h outcome' host''⟩
  · cases heffect with
    | failed _ hentries _ => exact fun name _ => hentries name
    | ran _ _ _ _ hothers _ _ => exact hothers
  · cases heffect with
    | failed hresult hentries _ => exact .inr ⟨hresult, hentries adapter.unit⟩
    | ran hrender hresult htrusted hfile _ _ _ =>
        refine .inl ⟨hresult, ⟨_, hrender, ?_⟩, _, consistency_match hrender htrusted hfile, rfl⟩
        rw [UnitHost.content, hfile]

end MachineDeck.Systemd

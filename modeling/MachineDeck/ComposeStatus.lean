import MachineDeck.ComposeFollow

/-!
# The state of a Docker Compose project

`run_command` and `DockerComposeAdapter` of `adapters/runtime.py`: what `docker compose ps` answers,
and the status the adapter makes of it.

* `runCommand`, `DockerComposeAdapter.status` — the command, and the state that is read from it;
* `Container`, `classify` — what the status depends on of a container, and the status of a list;
* `status_answers` — where the answer is read as a list of containers, they have the status of
  that list;
* `listed` — the containers of a project that `docker compose ps` lists;
* `reports_iff` — when the status is the one of the whole project.
-/

namespace MachineDeck.Runtime

open JsonText (Json loads member?)
open PythonNumber (pythonInt)
open Lifecycle (AdapterResult)
open Logs (ComposePlatform PyError asObject messageText trueMember? lower psContainers)

/-! ### Commands -/

/-- What becomes of a command. -/
inductive Execution where
  | unavailable (error : String)
  | timedOut
  | exited (returncode : ℤ) (stdout stderr : List UInt8)

def runCommand : Execution → AdapterResult
  | .unavailable error =>
    { succeeded := false, message := error, errorCode := some "RUNTIME_UNAVAILABLE" }
  | .timedOut =>
    { succeeded := false, message := "Runtime command timed out"
      errorCode := some "RUNTIME_TIMEOUT" }
  | .exited returncode stdout stderr =>
    { succeeded := decide (returncode = 0)
      message := String.ofList (LineText.strip (Utf8Text.decode (stdout ++ stderr)).toList)
      exitCode := some returncode
      errorCode := if returncode = 0 then none else some "RUNTIME_COMMAND_FAILED" }

structure RuntimeState where
  status : ApplicationStatus
  runtimeIdentifier : String
  metadata : List (String × Json) := []
  errorMessage : Option String := none

structure DockerComposeAdapter where
  applicationId : String
  runtime : ComposeRuntime

/-- `self.identifier`; the name of a path is its last part. -/
def DockerComposeAdapter.identifier (self : DockerComposeAdapter) : String :=
  match self.runtime.projectName.filter (· ≠ "") with
  | some name => name
  | none => self.runtime.workingDir.parts.getLastD ""

def DockerComposeAdapter.baseCommand (self : DockerComposeAdapter) : List String :=
  ["docker", "compose", "-f", self.runtime.composeFile] ++
    match self.runtime.projectName.filter (· ≠ "") with
    | some name => ["--project-name", name]
    | none => []

/-- The arguments of `status`; `_refresh_services` of the log adapter passes `--all` as well. -/
def statusArguments : List String := ["ps", "--format", "json"]

def refreshArguments : List String := ["ps", "--all", "--format", "json"]

/-! ### The status of a list of containers -/

def stateText (platform : ComposePlatform) (item : List (String × Json)) : List Char :=
  lower (messageText platform.toPlatform (member? item "State"))

def healthText (platform : ComposePlatform) (item : List (String × Json)) : List Char :=
  lower (messageText platform.toPlatform (member? item "Health"))

/-- `int(container.get("ExitCode") or 0)`. -/
def exitCode (platform : ComposePlatform) (item : List (String × Json)) : Except PyError ℤ :=
  match trueMember? platform item "ExitCode" with
  | some value => (pythonInt platform.decimalDigit value).mapError PyError.ofInt
  | none => .ok 0

def failedStates : List (List Char) := ["dead".toList, "failed".toList]

def stoppedStates : List (List Char) := ["exited".toList, "created".toList, "stopped".toList]

local instance lawfulBEq_states : LawfulBEq (List Char) := inferInstance

/-- `failed`: no exit code is read behind the first container that failed. -/
def anyFailed (platform : ComposePlatform) : List (List (String × Json)) → Except PyError Bool
  | [] => .ok false
  | item :: items =>
    if stateText platform item ∈ failedStates then .ok true
    else do
      let code ← exitCode platform item
      if code ≠ 0 then return true else anyFailed platform items

def classify (states health : List (List Char)) (failed : Bool) : ApplicationStatus :=
  if failed then .failed
  else if "unhealthy".toList ∈ health then .unhealthy
  else if states ≠ [] ∧ ∀ state ∈ states, state = "running".toList then .running
  else if states = [] ∨ ∀ state ∈ states, state ∈ stoppedStates then .stopped
  else .unknown

/-- `status`, with the answer of its command. -/
def DockerComposeAdapter.status (platform : ComposePlatform) (self : DockerComposeAdapter)
    (result : AdapterResult) : Except PyError RuntimeState :=
  if result.succeeded = false then
    .ok { status := .unknown
          runtimeIdentifier := self.identifier
          errorMessage := some
            (if result.message = "" then "Unable to read Compose state" else result.message) }
  else if result.message = "" then
    .ok { status := .stopped, runtimeIdentifier := self.identifier }
  else do
    match ← psContainers platform result.message with
    | none =>
      return { status := .unknown
               runtimeIdentifier := self.identifier
               errorMessage := some "Docker Compose returned invalid JSON" }
    | some containers =>
      let items ← containers.mapM asObject
      let failed ← anyFailed platform items
      return { status := classify (items.map (stateText platform)) (items.map (healthText platform))
                 failed
               runtimeIdentifier := self.identifier
               metadata := [("containers", .arr containers)] }

/-! ### Containers -/

/-- A container as `docker compose ps` describes it. -/
structure Container where
  state : String
  exitCode : ℤ
  health : String
  members : List (String × Json)
  state_eq : member? members "State" = some (.str state)
  exitCode_eq : member? members "ExitCode" = some (.int exitCode)
  health_eq : member? members "Health" = some (.str health)

namespace Container

/-- It is dead, has failed, or has exited with a code that is not zero. -/
def Failed (c : Container) : Prop := lower c.state ∈ failedStates ∨ c.exitCode ≠ 0

def Unhealthy (c : Container) : Prop := lower c.health = "unhealthy".toList

def Running (c : Container) : Prop := lower c.state = "running".toList

/-- It is created, has exited or is stopped. -/
def Idle (c : Container) : Prop := lower c.state ∈ stoppedStates

instance (c : Container) : Decidable c.Failed := inferInstanceAs (Decidable (_ ∨ _))

instance (c : Container) : Decidable c.Unhealthy := inferInstanceAs (Decidable (_ = _))

instance (c : Container) : Decidable c.Running := inferInstanceAs (Decidable (_ = _))

instance (c : Container) : Decidable c.Idle := inferInstanceAs (Decidable (_ ∈ _))

def json (c : Container) : Json := .obj c.members

end Container

theorem stateText_members (platform : ComposePlatform) (c : Container) :
    stateText platform c.members = lower c.state := by
  rw [stateText, c.state_eq, messageText]

theorem healthText_members (platform : ComposePlatform) (c : Container) :
    healthText platform c.members = lower c.health := by
  rw [healthText, c.health_eq, messageText]

/-- A code of zero is not looked at, and counts as zero. -/
theorem exitCode_members (platform : ComposePlatform) (c : Container) :
    exitCode platform c.members = .ok c.exitCode := by
  rw [exitCode, trueMember?, c.exitCode_eq]
  by_cases hzero : c.exitCode = 0
  · rw [hzero]
    rfl
  · rw [Option.filter_some, if_pos (by simpa [Logs.truthy] using hzero)]
    rfl

theorem anyFailed_members (platform : ComposePlatform) (listing : List Container) :
    anyFailed platform (listing.map Container.members) =
      .ok (decide (∃ c ∈ listing, c.Failed)) := by
  induction listing with
  | nil => rfl
  | cons c listing ih =>
      rw [List.map_cons, anyFailed, stateText_members, exitCode_members, ih]
      by_cases hstate : lower c.state ∈ failedStates
      · have hfailed : ∃ d ∈ c :: listing, d.Failed := ⟨c, List.mem_cons_self, .inl hstate⟩
        rw [if_pos hstate, decide_eq_true hfailed]
      · rw [if_neg hstate]
        by_cases hcode : c.exitCode = 0
        · have hsound : ¬ c.Failed := not_or.mpr ⟨hstate, not_not_intro hcode⟩
          simp [hcode, hsound, bind, Except.bind]
        · have hfailed : ∃ d ∈ c :: listing, d.Failed := ⟨c, List.mem_cons_self, .inr hcode⟩
          rw [decide_eq_true hfailed]
          simp [hcode, bind, Except.bind, pure, Except.pure]

theorem mapM_json (listing : List Container) :
    (listing.map Container.json).mapM asObject = .ok (listing.map Container.members) := by
  induction listing with
  | nil => rfl
  | cons c listing ih =>
      rw [List.map_cons, List.mapM_cons, ih]
      rfl

/-- The status of a list of containers. -/
def statusOf (listing : List Container) : ApplicationStatus :=
  classify (listing.map fun c => lower c.state) (listing.map fun c => lower c.health)
    (decide (∃ c ∈ listing, c.Failed))

/-- The command has succeeded, and its output is read as the list. -/
def Answers (platform : ComposePlatform) (listing : List Container) (result : AdapterResult) :
    Prop :=
  result.succeeded = true ∧
    (listing = [] ∧ result.message = "" ∨
      result.message ≠ "" ∧
        psContainers platform result.message = .ok (some (listing.map Container.json)))

section Status

variable {platform : ComposePlatform} {listing : List Container} {result : AdapterResult}

theorem status_silent (self : DockerComposeAdapter) (hsucceeded : result.succeeded = true)
    (hmessage : result.message = "") :
    self.status platform result =
      .ok { status := .stopped, runtimeIdentifier := self.identifier } := by
  rw [DockerComposeAdapter.status, if_neg (by rw [hsucceeded]; exact Bool.noConfusion),
    if_pos hmessage]

theorem status_read (self : DockerComposeAdapter) (hsucceeded : result.succeeded = true)
    (hmessage : result.message ≠ "")
    (hread : psContainers platform result.message = .ok (some (listing.map Container.json))) :
    self.status platform result =
      .ok { status := statusOf listing
            runtimeIdentifier := self.identifier
            metadata := [("containers", .arr (listing.map Container.json))] } := by
  have hstates : (listing.map Container.members).map (stateText platform) =
      listing.map fun c => lower c.state := by
    rw [List.map_map]
    exact List.map_congr_left fun c _ => stateText_members platform c
  have hhealth : (listing.map Container.members).map (healthText platform) =
      listing.map fun c => lower c.health := by
    rw [List.map_map]
    exact List.map_congr_left fun c _ => healthText_members platform c
  rw [DockerComposeAdapter.status, if_neg (by rw [hsucceeded]; exact Bool.noConfusion),
    if_neg hmessage, hread]
  simp only [bind, Except.bind, mapM_json, anyFailed_members, hstates, hhealth]
  rfl

/-- **The containers that are read** have the status of their list. -/
theorem status_answers (self : DockerComposeAdapter) (h : Answers platform listing result) :
    ∃ state, self.status platform result = .ok state ∧ state.status = statusOf listing := by
  obtain ⟨hsucceeded, ⟨rfl, hmessage⟩ | ⟨hmessage, hread⟩⟩ := h
  · exact ⟨_, status_silent self hsucceeded hmessage, rfl⟩
  · exact ⟨_, status_read self hsucceeded hmessage hread, rfl⟩

end Status

/-! ### What the status says -/

theorem running_not_idle {c : Container} (h : c.Running) : ¬ c.Idle := by
  intro hidle
  rw [Container.Idle, show lower c.state = _ from h] at hidle
  exact absurd hidle (by decide)

section Classification

variable (listing : List Container)

theorem statusOf_eq : statusOf listing =
    if ∃ c ∈ listing, c.Failed then .failed
    else if ∃ c ∈ listing, c.Unhealthy then .unhealthy
    else if listing ≠ [] ∧ ∀ c ∈ listing, c.Running then .running
    else if ∀ c ∈ listing, c.Idle then .stopped
    else .unknown := by
  have hhealth : "unhealthy".toList ∈ listing.map (fun c => lower c.health) ↔
      ∃ c ∈ listing, c.Unhealthy := List.mem_map
  have hstates (p : List Char → Prop) :
      (∀ state ∈ listing.map (fun c => lower c.state), p state) ↔
        ∀ c ∈ listing, p (lower c.state) := List.forall_mem_map
  have hnone : (listing = [] ∨ ∀ c ∈ listing, c.Idle) ↔ ∀ c ∈ listing, c.Idle :=
    or_iff_right_of_imp fun h c hc => by rw [h] at hc; cases hc
  simp only [statusOf, classify, decide_eq_true_eq, hhealth, hstates, ne_eq, List.map_eq_nil_iff]
  congr 3
  exact if_congr hnone rfl rfl

theorem statusOf_failed : statusOf listing = .failed ↔ ∃ c ∈ listing, c.Failed := by
  rw [statusOf_eq]
  split_ifs with h
  · exact iff_of_true rfl h
  all_goals exact iff_of_false nofun h

variable (hfailed : ¬ ∃ c ∈ listing, c.Failed)

include hfailed

theorem statusOf_unhealthy : statusOf listing = .unhealthy ↔ ∃ c ∈ listing, c.Unhealthy := by
  rw [statusOf_eq, if_neg hfailed]
  split_ifs with h
  · exact iff_of_true rfl h
  all_goals exact iff_of_false nofun h

variable (hunhealthy : ¬ ∃ c ∈ listing, c.Unhealthy)

include hunhealthy

theorem statusOf_running :
    statusOf listing = .running ↔ listing ≠ [] ∧ ∀ c ∈ listing, c.Running := by
  rw [statusOf_eq, if_neg hfailed, if_neg hunhealthy]
  split_ifs with h
  · exact iff_of_true rfl h
  all_goals exact iff_of_false nofun h

theorem statusOf_stopped : statusOf listing = .stopped ↔ ∀ c ∈ listing, c.Idle := by
  rw [statusOf_eq, if_neg hfailed, if_neg hunhealthy]
  split_ifs with hrunning hidle
  · obtain ⟨c, hc⟩ := List.exists_mem_of_ne_nil _ hrunning.1
    exact iff_of_false nofun fun hidle =>
      running_not_idle (hrunning.2 c hc) (hidle c hc)
  · exact iff_of_true rfl hidle
  · exact iff_of_false nofun hidle

end Classification

/-! ### The whole project -/

/-- The containers that `docker compose ps` lists: those that are not stopped, or all of them. -/
def listed (stopped : Container → Bool) (arguments : List String) (project : List Container) :
    List Container :=
  if "--all" ∈ arguments then project else project.filter fun c => !stopped c

/-- What the status of a project says about all of its containers. -/
structure Reports (project : List Container) (status : ApplicationStatus) : Prop where
  failed : status = .failed ↔ ∃ c ∈ project, c.Failed
  unhealthy : (¬ ∃ c ∈ project, c.Failed) →
    (status = .unhealthy ↔ ∃ c ∈ project, c.Unhealthy)
  running : (¬ ∃ c ∈ project, c.Failed) → (¬ ∃ c ∈ project, c.Unhealthy) →
    (status = .running ↔ project ≠ [] ∧ ∀ c ∈ project, c.Running)
  stopped : (¬ ∃ c ∈ project, c.Failed) → (¬ ∃ c ∈ project, c.Unhealthy) →
    (status = .stopped ↔ project = [] ∨ ∀ c ∈ project, c.Idle)

/-- What is not listed leaves the status as it is. -/
def NothingHidden (shown hidden : List Container) : Prop :=
  (∃ c ∈ shown, c.Failed) ∨ (∀ c ∈ hidden, ¬ c.Failed) ∧
    ((∃ c ∈ shown, c.Unhealthy) ∨ (∀ c ∈ hidden, ¬ c.Unhealthy) ∧
      ((shown ≠ [] ∧ ∀ c ∈ shown, c.Running) → hidden = []) ∧
      ((∀ c ∈ shown, c.Idle) → ∀ c ∈ hidden, c.Idle))

section Projects

variable {project shown hidden : List Container}

/-- The status of the containers that are shown is the one of the project, where no container that
runs is hidden. -/
theorem reports_statusOf (hproject : ∀ c, c ∈ project ↔ c ∈ shown ∨ c ∈ hidden)
    (hrunning : ∀ c ∈ hidden, ¬ c.Running) :
    Reports project (statusOf shown) ↔ NothingHidden shown hidden := by
  have hsome (p : Container → Prop) :
      (∃ c ∈ project, p c) ↔ (∃ c ∈ shown, p c) ∨ ∃ c ∈ hidden, p c := by
    simp only [hproject, or_and_right, exists_or]
  have hevery (p : Container → Prop) :
      (∀ c ∈ project, p c) ↔ (∀ c ∈ shown, p c) ∧ ∀ c ∈ hidden, p c := by
    simp only [hproject, or_imp, forall_and]
  have hnone : project = [] ↔ shown = [] ∧ hidden = [] := by
    simp only [List.eq_nil_iff_forall_not_mem, hproject, not_or, forall_and]
  by_cases hfailed : ∃ c ∈ shown, c.Failed
  · have hproject' := (hsome Container.Failed).mpr (.inl hfailed)
    exact iff_of_true
      ⟨iff_of_true ((statusOf_failed shown).mpr hfailed) hproject',
        fun h => absurd hproject' h, fun h => absurd hproject' h, fun h => absurd hproject' h⟩
      (.inl hfailed)
  rw [NothingHidden, or_iff_right hfailed]
  by_cases hlost : ∃ c ∈ hidden, c.Failed
  · refine iff_of_false (fun h => hfailed ?_) fun h => ?_
    · exact (statusOf_failed shown).mp (h.failed.mpr ((hsome _).mpr (.inr hlost)))
    · obtain ⟨c, hc, hcfailed⟩ := hlost
      exact h.1 c hc hcfailed
  have hsound : ¬ ∃ c ∈ project, c.Failed := fun h => ((hsome _).mp h).elim hfailed hlost
  have hfailed' : statusOf shown = .failed ↔ ∃ c ∈ project, c.Failed :=
    iff_of_false (fun h => hfailed ((statusOf_failed shown).mp h)) hsound
  rw [and_iff_right fun c hc hcfailed => hlost ⟨c, hc, hcfailed⟩]
  by_cases hunhealthy : ∃ c ∈ shown, c.Unhealthy
  · have hproject' := (hsome Container.Unhealthy).mpr (.inl hunhealthy)
    exact iff_of_true
      ⟨hfailed', fun _ => iff_of_true ((statusOf_unhealthy shown hfailed).mpr hunhealthy) hproject',
        fun _ h => absurd hproject' h, fun _ h => absurd hproject' h⟩
      (.inl hunhealthy)
  rw [or_iff_right hunhealthy]
  by_cases hill : ∃ c ∈ hidden, c.Unhealthy
  · refine iff_of_false (fun h => hunhealthy ?_) fun h => ?_
    · exact (statusOf_unhealthy shown hfailed).mp
        ((h.unhealthy hsound).mpr ((hsome _).mpr (.inr hill)))
    · obtain ⟨c, hc, hcill⟩ := hill
      exact h.1 c hc hcill
  have hhealthy : ¬ ∃ c ∈ project, c.Unhealthy := fun h => ((hsome _).mp h).elim hunhealthy hill
  have hunhealthy' : statusOf shown = .unhealthy ↔ ∃ c ∈ project, c.Unhealthy :=
    iff_of_false (fun h => hunhealthy ((statusOf_unhealthy shown hfailed).mp h)) hhealthy
  rw [and_iff_right fun c hc hcill => hill ⟨c, hc, hcill⟩]
  have hshown := statusOf_running shown hfailed hunhealthy
  have hidle := statusOf_stopped shown hfailed hunhealthy
  -- a project whose containers all run hides none
  have hall : (project ≠ [] ∧ ∀ c ∈ project, c.Running) ↔
      (shown ≠ [] ∧ ∀ c ∈ shown, c.Running) ∧ hidden = [] := by
    constructor
    · rintro ⟨hne, hruns⟩
      have hhidden : hidden = [] :=
        List.eq_nil_iff_forall_not_mem.mpr fun c hc =>
          hrunning c hc (((hevery Container.Running).mp hruns).2 c hc)
      exact ⟨⟨fun h => hne (hnone.mpr ⟨h, hhidden⟩), ((hevery Container.Running).mp hruns).1⟩,
        hhidden⟩
    · rintro ⟨⟨hne, hruns⟩, rfl⟩
      exact ⟨fun h => hne (hnone.mp h).1,
        (hevery Container.Running).mpr ⟨hruns, List.forall_mem_nil _⟩⟩
  have hempty : (project = [] ∨ ∀ c ∈ project, c.Idle) ↔ ∀ c ∈ project, c.Idle :=
    or_iff_right_of_imp fun h c hc => by rw [h] at hc; cases hc
  constructor
  · intro h
    have hruns := h.running hsound hhealthy
    have hstops := h.stopped hsound hhealthy
    rw [hshown, hall] at hruns
    rw [hidle, hempty, hevery] at hstops
    exact ⟨fun hshown => (hruns.mp hshown).2, fun hidle => (hstops.mp hidle).2⟩
  · rintro ⟨hruns, hstops⟩
    refine ⟨hfailed', fun _ => hunhealthy', fun _ _ => ?_, fun _ _ => ?_⟩
    · rw [hshown, hall]
      exact ⟨fun h => ⟨h, hruns h⟩, And.left⟩
    · rw [hidle, hempty, hevery]
      exact ⟨fun h => ⟨h, hstops h⟩, And.left⟩

theorem NothingHidden.perm {shown' : List Container} (h : shown.Perm shown') :
    NothingHidden shown hidden ↔ NothingHidden shown' hidden := by
  have hnil : shown = [] ↔ shown' = [] := by
    rw [← List.perm_nil, ← List.perm_nil]
    exact ⟨h.symm.trans, h.trans⟩
  simp only [NothingHidden, h.mem_iff, ne_eq, hnil]

theorem listed_status (stopped : Container → Bool) (project : List Container) :
    listed stopped statusArguments project = project.filter fun c => !stopped c :=
  if_neg (by decide)

/-- With `--all` no container is missing. -/
theorem listed_refresh (stopped : Container → Bool) (project : List Container) :
    listed stopped refreshArguments project = project :=
  if_pos (by decide)

end Projects

/-! ### Whose state is reported -/

section Reports

variable {platform : ComposePlatform} {project listing : List Container} {result : AdapterResult}

/-- **With `--all` the status is the one of the whole project**, in whatever order its containers
are listed. -/
theorem reports_all (self : DockerComposeAdapter) (stopped : Container → Bool)
    (hlisting : listing.Perm (listed stopped refreshArguments project))
    (hanswer : Answers platform listing result) :
    ∃ state, self.status platform result = .ok state ∧ Reports project state.status := by
  rw [listed_refresh] at hlisting
  obtain ⟨state, hstate, hstatus⟩ := status_answers self hanswer
  refine ⟨state, hstate, ?_⟩
  have hproject (c : Container) : c ∈ project ↔ c ∈ listing ∨ c ∈ ([] : List Container) := by
    rw [hlisting.mem_iff, or_iff_left List.not_mem_nil]
  rw [hstatus, reports_statusOf hproject (List.forall_mem_nil _)]
  by_cases hfailed : ∃ c ∈ listing, c.Failed
  · exact .inl hfailed
  · exact .inr ⟨List.forall_mem_nil _, .inr ⟨List.forall_mem_nil _, fun _ => rfl,
      fun _ => List.forall_mem_nil _⟩⟩

/-- **The status is the one of the whole project** exactly where no container that is stopped would
change it, in whatever order the others are listed. -/
theorem reports_iff (platform : ComposePlatform) (self : DockerComposeAdapter)
    (stopped : Container → Bool) (hstopped : ∀ c, stopped c = true → ¬ c.Running)
    (project listing : List Container)
    (hlisting : listing.Perm (listed stopped statusArguments project)) (result : AdapterResult)
    (hanswer : Answers platform listing result) :
    (∃ state, self.status platform result = .ok state ∧ Reports project state.status) ↔
      NothingHidden (project.filter fun c => !stopped c) (project.filter stopped) := by
  rw [listed_status] at hlisting
  obtain ⟨state, hstate, hstatus⟩ := status_answers self hanswer
  have hproject (c : Container) : c ∈ project ↔ c ∈ listing ∨ c ∈ project.filter stopped := by
    rw [hlisting.mem_iff, List.mem_filter, List.mem_filter]
    cases stopped c <;> simp
  have hreports := reports_statusOf hproject fun c hc => hstopped c (List.mem_filter.mp hc).2
  rw [← NothingHidden.perm hlisting, ← hreports, ← hstatus, hstate]
  constructor
  · rintro ⟨state', heq, h⟩
    rwa [Except.ok.inj heq]
  · exact fun h => ⟨state, rfl, h⟩

end Reports

/-! ### A worker that has crashed -/

def describe (service state : String) (exitCode : ℤ) (health : String) : Container where
  state := state
  exitCode := exitCode
  health := health
  members := [("Service", .str service), ("State", .str state), ("ExitCode", .int exitCode),
    ("Health", .str health)]
  state_eq := rfl
  exitCode_eq := rfl
  health_eq := rfl

def web : Container := describe "web" "running" 0 ""

def worker : Container := describe "worker" "exited" 1 ""

/-- What `docker compose ps` prints of the two without `--all`. -/
def webAnswer : AdapterResult where
  succeeded := true
  message :=
    "[\x7b\"Service\": \"web\", \"State\": \"running\", \"ExitCode\": 0, \"Health\": \"\"\x7d]"

theorem webAnswer_answers : Answers Logs.plainComposePlatform [web] webAnswer := by
  have hloads : loads 1000 webAnswer.message = .ok (.arr [web.json]) :=
    JsonText.loads_of_runFor (n := 20) (by decide) rfl
  refine ⟨rfl, .inr ⟨by decide, ?_⟩⟩
  rw [psContainers, show Logs.plainComposePlatform.recursionLimit = 1000 from rfl, hloads]
  rfl

def exited (c : Container) : Bool := decide (lower c.state = "exited".toList)

theorem exited_not_running (c : Container) (h : exited c = true) : ¬ c.Running := by
  intro hrunning
  have hexited := of_decide_eq_true h
  rw [show lower c.state = _ from hrunning] at hexited
  exact absurd hexited (by decide)

def stackAdapter : DockerComposeAdapter where
  applicationId := "mixed-stack"
  runtime := ⟨⟨["srv", "mixed"], by decide⟩, "compose.yaml", none, by decide⟩

theorem reports_iff_web :
    (∃ state, stackAdapter.status Logs.plainComposePlatform webAnswer = .ok state ∧
      Reports [web] state.status) ↔
      NothingHidden ([web].filter fun c => !exited c) ([web].filter exited) :=
  reports_iff Logs.plainComposePlatform stackAdapter exited exited_not_running [web] [web]
    (List.Perm.refl _) webAnswer webAnswer_answers

/-- A service that has crashed is not listed, and the project is reported as running. -/
theorem crash_hidden : ¬ ∀ (platform : ComposePlatform) (self : DockerComposeAdapter)
    (stopped : Container → Bool), (∀ c, stopped c = true → ¬ c.Running) →
      ∀ project listing : List Container,
        listing.Perm (listed stopped statusArguments project) →
          ∀ result, Answers platform listing result →
            ∃ state, self.status platform result = .ok state ∧ Reports project state.status := by
  intro h
  obtain ⟨state, hstate, hreports⟩ := h Logs.plainComposePlatform stackAdapter exited
    exited_not_running [web, worker] [web] (List.Perm.refl _) webAnswer webAnswer_answers
  obtain ⟨state', hstate', hstatus⟩ := status_answers stackAdapter webAnswer_answers
  rw [hstate] at hstate'
  have hfailed := hreports.failed.mpr ⟨worker, by simp, by decide⟩
  rw [Except.ok.inj hstate', hstatus] at hfailed
  exact absurd hfailed (by decide)

end MachineDeck.Runtime

import MachineDeck.ApplicationSummary
import MachineDeck.FirstOccurrences
import MachineDeck.GuardedRuns
import MachineDeck.ProgramTriple
import MachineDeck.Traversals

/-!
# The collector of the GPUs

`GpuMetricsCollector`: one NVML session over many collections, whatever the driver answers.

* `Nvml`, `perform` — the driver, whose answers may depend on all calls before, and a call of it;
* `GpuMetricsCollector.initializeNvml`, `device`, `collect`, `close` — the collector;
* `processes_exact` — one entry for each process, with the last memory that was known;
* `session` — the calls as a session: opened once, used while it is open, closed once;
* `Collected`, `gpu_session_kept` — what a collection returns, over any run of collections and
  closings.
-/

namespace MachineDeck.Dashboard

open ProgramTriple GuardedRuns
open MachineDeck.Lifecycle (CollectorState)

/-! ### The driver -/

inductive DeviceQuery where
  | memoryInfo | utilizationRates | temperature | powerUsage | enforcedPowerLimit | fanSpeed
  | computeRunningProcesses | graphicsRunningProcesses | uuid | name
  deriving DecidableEq, Repr

inductive NvmlCall where
  | init | shutdown | deviceGetCount
  | deviceGetHandleByIndex (index : ℕ)
  | device (query : DeviceQuery) (handle : ℕ)
  deriving DecidableEq, Repr

/-- The calls, each with whether it returned. -/
abbrev History := List (NvmlCall × Bool)

structure MemoryInfo where
  total : ℤ
  used : ℤ
  free : ℤ

structure RunningProcess where
  pid : ℤ
  usedGpuMemory : Option ℤ

/-- What `pynvml` answers, or the name of the exception. -/
structure Nvml where
  load : History → Except String Unit
  init : History → Except String Unit
  shutdown : History → Except String Unit
  deviceGetCount : History → Except String ℤ
  deviceGetHandleByIndex : ℕ → History → Except String ℕ
  memoryInfo : ℕ → History → Except String MemoryInfo
  number : DeviceQuery → ℕ → History → Except String ℤ
  processes : DeviceQuery → ℕ → History → Except String (List RunningProcess)
  text : DeviceQuery → ℕ → History → Except String String

/-- `self.module` and `self.initialized`, with the calls so far. -/
structure GpuWorld where
  module : Bool := false
  initialized : Bool := false
  history : History := []

abbrev Collect := EStateM String GpuWorld

/-- A call of the module; there is none where it is `None`. -/
def perform {α : Type} (call : NvmlCall) (answer : History → Except String α) : Collect α :=
  fun w =>
    if w.module = false then .error "ATTRIBUTEERROR" w
    else
      match answer w.history with
      | .ok a => .ok a { w with history := w.history ++ [(call, true)] }
      | .error e => .error e { w with history := w.history ++ [(call, false)] }

/-! ### A device -/

structure GpuProcessMetrics where
  pid : ℤ
  usedVramBytes : Option ℤ
  processName : Option String
  applicationId : Option String := none
  managed : Bool := false
  deriving DecidableEq, Repr

/-- The numbers are those of the driver, the power in milliwatts. -/
structure GpuMetrics where
  index : ℕ
  uuid : String
  name : String
  utilizationPercent : Option ℤ := none
  memoryTotalBytes : ℤ := 0
  memoryUsedBytes : ℤ := 0
  memoryFreeBytes : ℤ := 0
  temperatureCelsius : Option ℤ := none
  powerUsage : Option ℤ := none
  powerLimit : Option ℤ := none
  fanPercent : Option ℤ := none
  processCount : ℕ := 0
  processes : List GpuProcessMetrics := []
  available : Bool := true
  error : Option String := none
  deriving DecidableEq, Repr

def percentage (value : ℤ) : Bool := decide (0 ≤ value ∧ value ≤ 100)

/-- The checks of the model. -/
def GpuMetrics.valid (gpu : GpuMetrics) : Bool :=
  gpu.utilizationPercent.all percentage && decide (0 ≤ gpu.memoryTotalBytes) &&
    decide (0 ≤ gpu.memoryUsedBytes) && decide (0 ≤ gpu.memoryFreeBytes) &&
    gpu.powerUsage.all (0 ≤ ·) && gpu.powerLimit.all (0 ≤ ·) && gpu.fanPercent.all percentage &&
    gpu.processes.all fun process => 1 ≤ process.pid

/-- `by_pid[pid] = value` -/
def setItem (pid : ℤ) (value : Option ℤ) : List (ℤ × Option ℤ) → List (ℤ × Option ℤ)
  | [] => [(pid, value)]
  | item :: items =>
    if item.1 = pid then (pid, value) :: items else item :: setItem pid value items

/-- `by_pid.get(pid)` -/
def getItem (pid : ℤ) (items : List (ℤ × Option ℤ)) : Option ℤ :=
  (items.find? fun item => item.1 == pid).bind Prod.snd

def knownMemory (process : RunningProcess) : Option ℤ :=
  process.usedGpuMemory.filter fun used => 0 ≤ used ∧ used < 2 ^ 63

def addProcess (byPid : List (ℤ × Option ℤ)) (process : RunningProcess) : List (ℤ × Option ℤ) :=
  setItem process.pid ((knownMemory process).or (getItem process.pid byPid)) byPid

/-- `ownership.enrich`, where nothing is managed: `psutil.Process` takes no negative number, and the
model no zero. -/
def enrich (processName : ℤ → Option String) (processes : List (ℤ × Option ℤ)) :
    Except String (List GpuProcessMetrics) :=
  processes.mapM fun process =>
    if process.1 < 0 then .error "VALUEERROR"
    else if process.1 = 0 then .error "VALIDATIONERROR"
    else .ok {
      pid := process.1
      usedVramBytes := process.2
      processName := processName process.1 }

namespace GpuMetricsCollector

variable (nvml : Nvml) (processName : ℤ → Option String)

def optional {α : Type} (call : NvmlCall) (answer : History → Except String α) :
    Collect (Option α) :=
  tryCatch (some <$> perform call answer) fun _ => pure none

def processes (handle : ℕ) : Collect (List (ℤ × Option ℤ)) := do
  let compute ← optional (.device .computeRunningProcesses handle)
    (nvml.processes .computeRunningProcesses handle)
  let graphics ← optional (.device .graphicsRunningProcesses handle)
    (nvml.processes .graphicsRunningProcesses handle)
  return (compute.getD [] ++ graphics.getD []).foldl addProcess []

def optionalNumber (query : DeviceQuery) (handle : ℕ) : Collect (Option ℤ) :=
  optional (.device query handle) (nvml.number query handle)

/-- The `try` of `_device`. -/
def queryDevice (index : ℕ) : Collect GpuMetrics := do
  let handle ← perform (.deviceGetHandleByIndex index) (nvml.deviceGetHandleByIndex index)
  let memory ← perform (.device .memoryInfo handle) (nvml.memoryInfo handle)
  let utilization ← optionalNumber nvml .utilizationRates handle
  let temperature ← optionalNumber nvml .temperature handle
  let powerUsage ← optionalNumber nvml .powerUsage handle
  let powerLimit ← optionalNumber nvml .enforcedPowerLimit handle
  let fan ← optionalNumber nvml .fanSpeed handle
  let running ← processes nvml handle
  let enriched ← (match enrich processName running with
    | .ok enriched => pure enriched
    | .error e => throw e : Collect (List GpuProcessMetrics))
  let uuid ← perform (.device .uuid handle) (nvml.text .uuid handle)
  let name ← perform (.device .name handle) (nvml.text .name handle)
  let gpu : GpuMetrics := {
    index := index
    uuid := uuid
    name := name
    utilizationPercent := utilization
    memoryTotalBytes := memory.total
    memoryUsedBytes := memory.used
    memoryFreeBytes := memory.free
    temperatureCelsius := temperature
    powerUsage := powerUsage
    powerLimit := powerLimit
    fanPercent := fan
    processCount := enriched.length
    processes := enriched }
  if gpu.valid then return gpu else throw "VALIDATIONERROR"

def unavailableDevice (index : ℕ) (error : String) : GpuMetrics where
  index := index
  uuid := "unavailable-" ++ toString index
  name := "GPU " ++ toString index
  available := false
  error := some error

def device (index : ℕ) : Collect GpuMetrics :=
  tryCatch (queryDevice nvml processName index) fun error => pure (unavailableDevice index error)

/-! ### The collector -/

/-- `_initialize`; `none` is success. -/
def initializeNvml : Collect (Option CollectorState) := do
  let w ← get
  if w.initialized then return none
  tryCatch (do
      match nvml.load w.history with
      | .ok _ => modify fun w => { w with module := true }
      | .error e => throw e
      perform .init nvml.init
      modify fun w => { w with initialized := true }
      return none)
    fun error => do
      modify fun w => { w with module := false, initialized := false }
      return some {
        available := false
        errorCode := some "NVML_NOT_AVAILABLE"
        message := some error }

def close : Collect Unit := do
  let w ← get
  if w.initialized && w.module then
    tryCatch (perform .shutdown nvml.shutdown) fun _ => pure ()
  modify fun w => { w with initialized := false, module := false }

/-- The state behind a list of devices. -/
def gpuState (gpus : List GpuMetrics) (count : ℤ) : CollectorState :=
  let failures := (gpus.filter fun gpu => !gpu.available).length
  if failures ≠ 0 then
    { available := decide ((failures : ℤ) < count)
      errorCode := some "GPU_METRICS_PARTIAL"
      message := some (toString failures ++ " GPU(s) could not be queried") }
  else { available := true }

def collect : Collect (List GpuMetrics × CollectorState) := do
  match ← initializeNvml nvml with
  | some state => return ([], state)
  | none =>
    tryCatch (do
        let count ← perform .deviceGetCount nvml.deviceGetCount
        let gpus ← (List.range count.toNat).mapM (device nvml processName)
        return (gpus, gpuState gpus count))
      fun error => do
        close nvml
        return ([], {
          available := false
          errorCode := some "GPU_METRICS_UNAVAILABLE"
          message := some error })

end GpuMetricsCollector

/-! ### Processes -/

section

open FirstOccurrences (addNew firsts)

variable {keys : List ℤ} {f : ℤ → Option ℤ}

theorem setItem_entries (h : keys.Nodup) (pid : ℤ) (value : Option ℤ) :
    setItem pid value (keys.map fun key => (key, f key)) =
      (addNew keys pid).map fun key => (key, if key = pid then value else f key) := by
  induction keys with
  | nil => simp [setItem, addNew]
  | cons key keys ih =>
    obtain ⟨hkey, hkeys⟩ := List.nodup_cons.mp h
    rw [List.map_cons, setItem]
    by_cases hsame : key = pid
    · subst hsame
      have hrest : (keys.map fun k => (k, f k)) =
          keys.map fun k => (k, if k = key then value else f k) := by
        refine List.map_congr_left fun k hk => ?_
        have hne : k ≠ key := fun heq => hkey (heq ▸ hk)
        rw [if_neg hne]
      rw [if_pos rfl, addNew, if_pos List.mem_cons_self, List.map_cons, if_pos rfl, hrest]
    · have hadd : addNew (key :: keys) pid = key :: addNew keys pid := by
        by_cases hmem : pid ∈ keys
        · rw [addNew, addNew, if_pos hmem, if_pos (List.mem_cons_of_mem key hmem)]
        · have hout : pid ∉ key :: keys := by simp [hmem, Ne.symm hsame]
          rw [addNew, addNew, if_neg hmem, if_neg hout]
          rfl
      rw [if_neg hsame, ih hkeys, hadd, List.map_cons, if_neg hsame]

theorem getItem_entries (pid : ℤ) :
    getItem pid (keys.map fun key => (key, f key)) = if pid ∈ keys then f pid else none := by
  induction keys with
  | nil => rfl
  | cons key keys ih =>
    rw [getItem] at ih ⊢
    rw [List.map_cons, List.find?_cons]
    by_cases hsame : key = pid
    · subst hsame
      simp
    · have hne : ((key, f key).1 == pid) = false := by simpa using hsame
      simp only [hne, ih, List.mem_cons, Ne.symm hsame, false_or]

/-- The last memory of a process that was known. -/
def lastKnown (running : List RunningProcess) (pid : ℤ) : Option ℤ :=
  ((running.filter (·.pid = pid)).filterMap knownMemory).getLast?

theorem lastKnown_concat (running : List RunningProcess) (process : RunningProcess) (pid : ℤ) :
    lastKnown (running ++ [process]) pid =
      if pid = process.pid then (knownMemory process).or (lastKnown running pid)
      else lastKnown running pid := by
  rw [lastKnown, List.filter_append, List.filterMap_append, List.getLast?_append, lastKnown]
  by_cases hsame : pid = process.pid
  · subst hsame
    have hone : [process].filter (·.pid = process.pid) = [process] := by simp
    rw [if_pos rfl, hone]
    cases hknown : knownMemory process <;> simp [hknown]
  · have hnone : [process].filter (·.pid = pid) = [] := by simp [Ne.symm hsame]
    rw [if_neg hsame, hnone]
    rfl

theorem lastKnown_none {running : List RunningProcess} {pid : ℤ}
    (h : pid ∉ running.map RunningProcess.pid) : lastKnown running pid = none := by
  have hnone : running.filter (·.pid = pid) = [] := by
    rw [List.filter_eq_nil_iff]
    intro process hmem hsame
    exact h (List.mem_map.mpr ⟨process, hmem, of_decide_eq_true hsame⟩)
  rw [lastKnown, hnone]
  rfl

/-- **One entry for each process**, in the order of the first ones, with the last memory that was
known. -/
theorem processes_exact (running : List RunningProcess) :
    running.foldl addProcess [] =
      (firsts (running.map RunningProcess.pid)).map fun pid => (pid, lastKnown running pid) := by
  induction running using List.reverseRecOn with
  | nil => rfl
  | append_singleton running process ih =>
    have hfirsts : firsts ((running ++ [process]).map RunningProcess.pid) =
        addNew (firsts (running.map RunningProcess.pid)) process.pid := by
      rw [List.map_append, ← FirstOccurrences.foldl_addNew, List.foldl_append,
        FirstOccurrences.foldl_addNew]
      rfl
    have hget : getItem process.pid ((firsts (running.map RunningProcess.pid)).map
        fun pid => (pid, lastKnown running pid)) = lastKnown running process.pid := by
      rw [getItem_entries]
      split_ifs with hmem
      · rfl
      · rw [lastKnown_none fun hno => hmem (FirstOccurrences.mem_firsts.mpr hno)]
    rw [List.foldl_append, ih, List.foldl_cons, List.foldl_nil, addProcess, hget,
      setItem_entries (FirstOccurrences.nodup_firsts _), hfirsts]
    refine List.map_congr_left fun pid _ => ?_
    rw [lastKnown_concat]
    split_ifs with hsame
    · rw [hsame]
    · rfl

end

/-! ### The session -/

/-- The session behind a call: opened where it is closed, used and closed where it is open. -/
def sessionStep : Option Bool → NvmlCall × Bool → Option Bool
  | some false, (.init, returned) => some returned
  | some true, (.shutdown, _) => some false
  | some true, (.deviceGetCount, _) => some true
  | some true, (.deviceGetHandleByIndex _, _) => some true
  | some true, (.device _ _, _) => some true
  | _, _ => none

/-- Whether the session is open after these calls, or `none` where a call had no place. -/
def session (history : History) : Option Bool := history.foldl sessionStep (some false)

theorem session_concat (history : History) (call : NvmlCall × Bool) :
    session (history ++ [call]) = sessionStep (session history) call := by
  rw [session, List.foldl_append]
  rfl

def Open (w : GpuWorld) : Prop :=
  w.module = true ∧ w.initialized = true ∧ session w.history = some true

def Closed (w : GpuWorld) : Prop :=
  w.module = false ∧ w.initialized = false ∧ session w.history = some false

def NvmlCall.asks : NvmlCall → Prop
  | .init | .shutdown => False
  | _ => True

variable {nvml : Nvml} {processName : ℤ → Option String} {α β : Type}

theorem sessionStep_asks {call : NvmlCall} (h : call.asks) (returned : Bool) :
    sessionStep (some true) (call, returned) = some true := by
  cases call with
  | init => exact h.elim
  | shutdown => exact h.elim
  | deviceGetCount => rfl
  | deviceGetHandleByIndex index => rfl
  | device query handle => rfl

theorem perform_open {call : NvmlCall} (h : call.asks) (answer : History → Except String α) :
    Keeps Open (perform call answer) := by
  intro w hw
  obtain ⟨hmodule, hinitialized, hsession⟩ := hw
  have hafter (returned : Bool) : session (w.history ++ [(call, returned)]) = some true := by
    rw [session_concat, hsession, sessionStep_asks h]
  have hloaded : ¬ w.module = false := by simp [hmodule]
  rw [perform, if_neg hloaded]
  cases answer w.history with
  | ok a => exact ⟨hmodule, hinitialized, hafter true⟩
  | error e => exact ⟨hmodule, hinitialized, hafter false⟩

/-- What each element leaves behind is left behind by the whole traversal. -/
theorem traversal_triple {I : GpuWorld → Prop} {R : α → β → Prop} {f : α → Collect β}
    (h : ∀ a, Triple I (f a) (fun b w => I w ∧ R a b) fun _ => I) (l : List α) :
    Triple I (l.mapM f) (fun bs w => I w ∧ List.Forall₂ R l bs) fun _ => I := by
  induction l with
  | nil =>
    rw [List.mapM_nil]
    exact Triple.pure fun w hw => ⟨hw, List.Forall₂.nil⟩
  | cons a l ih =>
    rw [List.mapM_cons]
    refine Triple.bind (h a) fun b => Triple.of_and fun hb => ?_
    refine Triple.bind ih fun bs => Triple.of_and fun hbs => ?_
    exact Triple.pure fun w hw => ⟨hw, List.Forall₂.cons hb hbs⟩

namespace GpuMetricsCollector

theorem optional_open {call : NvmlCall} (h : call.asks) (answer : History → Except String α) :
    Triple Open (optional call answer) (fun _ => Open) fun _ _ => False := by
  refine Triple.tryCatch (R := fun _ => Open) ?_ fun _ => Triple.pure fun _ hw => hw
  exact Keeps.bind (perform_open h answer) fun a => Keeps.pure (some a)

theorem asks_deviceGetHandleByIndex (index : ℕ) :
    (NvmlCall.deviceGetHandleByIndex index).asks := trivial

theorem asks_device (query : DeviceQuery) (handle : ℕ) :
    (NvmlCall.device query handle).asks := trivial

theorem processes_open (handle : ℕ) :
    Triple Open (processes nvml handle) (fun found w => Open w ∧ (found.map Prod.fst).Nodup)
      fun _ => Open := by
  have hoptional {γ : Type} (query : DeviceQuery) (answer : History → Except String γ) :
      Keeps Open (optional (.device query handle) answer) :=
    (optional_open (asks_device query handle) answer).conseq (fun _ hw => hw)
      (fun _ _ hw => hw) fun _ _ hw => hw.elim
  refine Triple.bind (hoptional .computeRunningProcesses _) fun compute => ?_
  refine Triple.bind (hoptional .graphicsRunningProcesses _) fun graphics => ?_
  refine Triple.pure fun w hw => ⟨hw, ?_⟩
  have hpids : (((compute.getD [] ++ graphics.getD []).foldl addProcess []).map Prod.fst) =
      FirstOccurrences.firsts ((compute.getD [] ++ graphics.getD []).map RunningProcess.pid) := by
    rw [processes_exact, List.map_map]
    exact List.map_id _
  rw [hpids]
  exact FirstOccurrences.nodup_firsts _

theorem enrich_pids {found : List (ℤ × Option ℤ)} {rows : List GpuProcessMetrics}
    (h : enrich processName found = .ok rows) :
    rows.map GpuProcessMetrics.pid = found.map Prod.fst := by
  refine Traversals.map_of_mapM h fun process row hrow => ?_
  split_ifs at hrow
  cases hrow
  rfl

/-- The row at an index, whether the device has answered or not. -/
structure RowOf (index : ℕ) (gpu : GpuMetrics) : Prop where
  index : gpu.index = index
  valid : gpu.valid = true
  processCount : gpu.processCount = gpu.processes.length
  processes : (gpu.processes.map GpuProcessMetrics.pid).Nodup
  error : gpu.error = none ↔ gpu.available = true

theorem unavailableDevice_row (index : ℕ) (error : String) :
    RowOf index (unavailableDevice index error) where
  index := rfl
  valid := rfl
  processCount := rfl
  processes := List.nodup_nil
  error := by simp [unavailableDevice]

theorem queryDevice_open (index : ℕ) :
    Triple Open (queryDevice nvml processName index) (fun gpu w => Open w ∧ RowOf index gpu)
      fun _ => Open := by
  have hnumber (query : DeviceQuery) (handle : ℕ) :
      Keeps Open (optionalNumber nvml query handle) :=
    (optional_open (asks_device query handle) _).conseq (fun _ hw => hw)
      (fun _ _ hw => hw) fun _ _ hw => hw.elim
  refine Triple.bind (perform_open (asks_deviceGetHandleByIndex index) _) fun handle => ?_
  refine Triple.bind (perform_open (asks_device .memoryInfo handle) _) fun memory => ?_
  refine Triple.bind (hnumber .utilizationRates handle) fun utilization => ?_
  refine Triple.bind (hnumber .temperature handle) fun temperature => ?_
  refine Triple.bind (hnumber .powerUsage handle) fun powerUsage => ?_
  refine Triple.bind (hnumber .enforcedPowerLimit handle) fun powerLimit => ?_
  refine Triple.bind (hnumber .fanSpeed handle) fun fan => ?_
  refine Triple.bind (processes_open handle) fun running => Triple.of_and fun hrunning => ?_
  cases hrows : enrich processName running with
  | error e => exact Triple.bind (R := fun _ _ => False) (fun _ hw => hw) fun _ _ hno => hno.elim
  | ok rows =>
    refine Triple.bind (R := fun enriched w => Open w ∧ enriched = rows)
      (Triple.pure fun w hw => ⟨hw, rfl⟩) fun enriched => Triple.of_and fun heq => ?_
    subst heq
    refine Triple.bind (perform_open (asks_device .uuid handle) _) fun uuid => ?_
    refine Triple.bind (perform_open (asks_device .name handle) _) fun name => ?_
    dsimp only
    split_ifs with hvalid
    · refine Triple.pure fun w hw => ⟨hw, rfl, hvalid, rfl, ?_, by simp⟩
      rw [enrich_pids hrows]
      exact hrunning
    · exact Triple.throw fun w hw => hw

/-- A device that does not answer leaves a row and the session. -/
theorem device_open (index : ℕ) :
    Triple Open (device nvml processName index) (fun gpu w => Open w ∧ RowOf index gpu)
      fun _ => Open := by
  refine Triple.tryCatch (queryDevice_open index) fun error => ?_
  exact Triple.pure fun w hw => ⟨hw, unavailableDevice_row index error⟩

/-- The session is opened, unless it is open; where that fails it is left closed. -/
theorem initializeNvml_kept :
    Triple (fun w => Open w ∨ Closed w) (initializeNvml nvml)
      (fun outcome w => match outcome with
        | none => Open w
        | some state => Closed w ∧ state.available = false)
      fun _ _ => False := by
  refine Triple.get_bind fun w hw => ?_
  split_ifs with hinitialized
  · refine Triple.pure fun t ht => ?_
    subst ht
    refine hw.resolve_right fun hclosed => ?_
    rw [hclosed.2.1] at hinitialized
    cases hinitialized
  · obtain ⟨hmodule, hclosed, hsession⟩ : Closed w :=
      hw.resolve_left fun hopen => hinitialized hopen.2.1
    refine Triple.tryCatch (R := fun _ t => session t.history = some false) ?_ fun error => ?_
    · cases nvml.load w.history with
      | error e =>
        intro t ht
        subst ht
        exact hsession
      | ok u =>
        intro t ht
        subst ht
        have hafter (returned : Bool) :
            session (t.history ++ [(NvmlCall.init, returned)]) = some returned := by
          rw [session_concat, hsession]
          rfl
        simp only [run_bind, run_pure, run_modify, perform, Bool.true_eq_false, if_false]
        cases nvml.init t.history with
        | ok u => exact ⟨rfl, rfl, hafter true⟩
        | error e => exact hafter false
    · intro t ht
      exact ⟨⟨rfl, rfl, ht⟩, rfl⟩

theorem close_closed :
    Triple (fun w => Open w ∨ Closed w) (close nvml) (fun _ => Closed) fun _ _ => False := by
  refine Triple.get_bind fun w hw => ?_
  obtain ⟨hmodule, hinitialized, hsession⟩ | ⟨hmodule, hinitialized, hsession⟩ := hw
  · rw [hmodule, hinitialized]
    refine Triple.bind (R := fun _ t => session t.history = some false) ?_ fun _ => ?_
    · refine Triple.tryCatch (R := fun _ t => session t.history = some false) ?_
        fun _ => Triple.pure fun t ht => ht
      intro t ht
      subst ht
      have hafter (returned : Bool) :
          session (t.history ++ [(NvmlCall.shutdown, returned)]) = some false := by
        rw [session_concat, hsession]
        rfl
      have hloaded : ¬ t.module = false := by simp [hmodule]
      rw [perform, if_neg hloaded]
      cases nvml.shutdown t.history with
      | ok u => exact hafter true
      | error e => exact hafter false
    · exact Triple.modify fun t ht => ⟨rfl, rfl, ht⟩
  · rw [hmodule, hinitialized]
    intro t ht
    subst ht
    exact ⟨rfl, rfl, hsession⟩

end GpuMetricsCollector

/-! ### A collection -/

/-- What a collection returns, and how it leaves the session: a row for each device, or none and
the session closed. -/
inductive Collected : List GpuMetrics × CollectorState → GpuWorld → Prop where
  | rows {gpus : List GpuMetrics} {state : CollectorState} {w : GpuWorld} (hopen : Open w)
      (hrows : List.Forall₂ RowOf (List.range gpus.length) gpus)
      (havailable : state.available = true ↔ gpus = [] ∨ ∃ gpu ∈ gpus, gpu.available = true)
      (hcode : state.errorCode = none ↔ ∀ gpu ∈ gpus, gpu.available = true) :
      Collected (gpus, state) w
  | nothing {state : CollectorState} {w : GpuWorld} (hclosed : Closed w)
      (hstate : state.available = false) : Collected ([], state) w

theorem failures_none {gpus : List GpuMetrics} :
    (gpus.filter fun gpu => !gpu.available).length = 0 ↔ ∀ gpu ∈ gpus, gpu.available = true := by
  simp [List.filter_eq_nil_iff]

theorem failures_some {gpus : List GpuMetrics} :
    (gpus.filter fun gpu => !gpu.available).length < gpus.length ↔
      ∃ gpu ∈ gpus, gpu.available = true := by
  rw [List.length_filter_lt_length_iff_exists]
  simp

theorem gpuState_rows {gpus : List GpuMetrics} {count : ℤ} {w : GpuWorld} (hopen : Open w)
    (hrows : List.Forall₂ RowOf (List.range count.toNat) gpus) :
    Collected (gpus, GpuMetricsCollector.gpuState gpus count) w := by
  have hlength : gpus.length = count.toNat := by
    rw [← hrows.length_eq, List.length_range]
  rw [← hlength] at hrows
  by_cases hnone : (gpus.filter fun gpu => !gpu.available).length = 0
  · have hall := failures_none.mp hnone
    have hstate : GpuMetricsCollector.gpuState gpus count = { available := true } := by
      simp [GpuMetricsCollector.gpuState, hnone]
    rw [hstate]
    refine .rows hopen hrows ⟨fun _ => ?_, fun _ => rfl⟩ ⟨fun _ => hall, fun _ => rfl⟩
    cases gpus with
    | nil => exact Or.inl rfl
    | cons gpu gpus => exact Or.inr ⟨gpu, List.mem_cons_self, hall gpu List.mem_cons_self⟩
  · have hsome : (gpus.filter fun gpu => !gpu.available).length ≤ gpus.length :=
      List.length_filter_le _ _
    have hcount : count = gpus.length := by omega
    refine .rows hopen hrows ?_ ?_
    · rw [GpuMetricsCollector.gpuState, if_pos hnone, hcount]
      show decide _ = true ↔ _
      rw [decide_eq_true_iff, Int.ofNat_lt, failures_some]
      have hrow : gpus ≠ [] := by
        intro hnil
        rw [hnil] at hnone
        exact hnone rfl
      exact (or_iff_right hrow).symm
    · rw [GpuMetricsCollector.gpuState, if_pos hnone]
      have hfailure : ¬ ∀ gpu ∈ gpus, gpu.available = true :=
        fun hall => hnone (failures_none.mpr hall)
      simp [hfailure]

theorem asks_deviceGetCount : NvmlCall.deviceGetCount.asks := trivial

theorem collect_kept :
    Triple (fun w => Open w ∨ Closed w) (GpuMetricsCollector.collect nvml processName) Collected
      fun _ _ => False := by
  refine Triple.bind GpuMetricsCollector.initializeNvml_kept fun outcome => ?_
  cases outcome with
  | some state => exact Triple.pure fun w hw => .nothing hw.1 hw.2
  | none =>
    refine Triple.tryCatch (R := fun _ => Open) ?_ fun error => ?_
    · refine Triple.bind (perform_open asks_deviceGetCount _) fun count => ?_
      refine Triple.bind (traversal_triple GpuMetricsCollector.device_open _) fun gpus => ?_
      exact Triple.pure fun w hw => gpuState_rows hw.1 hw.2
    · refine Triple.bind (R := fun _ => Closed) ?_ fun _ => ?_
      · exact GpuMetricsCollector.close_closed.conseq (fun w hw => Or.inl hw) (fun _ _ hw => hw)
          fun _ _ hw => hw
      · exact Triple.pure fun w hw => .nothing hw rfl

/-! ### Runs -/

inductive GpuRequest where
  | collect | close
  deriving DecidableEq

/-- The collector between two requests. -/
def gpuStep (nvml : Nvml) (processName : ℤ → Option String) (w : GpuWorld) :
    GpuRequest → GpuWorld → Prop
  | .collect, w' => w' = finalState (GpuMetricsCollector.collect nvml processName w)
  | .close, w' => w' = finalState (GpuMetricsCollector.close nvml w)

theorem Collected.openOrClosed {result : List GpuMetrics × CollectorState} {w : GpuWorld}
    (h : Collected result w) : Open w ∨ Closed w := by
  cases h with
  | rows hopen hrows havailable hcode => exact Or.inl hopen
  | nothing hclosed hstate => exact Or.inr hclosed

theorem gpuStep_kept {w w' : GpuWorld} {request : GpuRequest} (hw : Open w ∨ Closed w)
    (h : gpuStep nvml processName w request w') : Open w' ∨ Closed w' := by
  cases request with
  | collect =>
    cases h
    refine Keeps.finalState (I := fun w => Open w ∨ Closed w) ?_ hw
    exact collect_kept.conseq (fun _ hw => hw) (fun _ _ hw => hw.openOrClosed)
      fun _ _ hw => hw.elim
  | close =>
    cases h
    refine Keeps.finalState (I := fun w => Open w ∨ Closed w) ?_ hw
    exact GpuMetricsCollector.close_closed.conseq (fun _ hw => hw) (fun _ _ hw => Or.inr hw)
      fun _ _ hw => hw.elim

theorem reached_kept {w : GpuWorld} (h : Reach (gpuStep nvml processName) Anyhow {} w) :
    Open w ∨ Closed w := by
  have hstart : Open {} ∨ Closed {} := Or.inr ⟨rfl, rfl, rfl⟩
  exact Reach.invariant (I := fun w => Open w ∨ Closed w) hstart
    (fun _ _ _ hw _ hstep => gpuStep_kept hw hstep) h

/-- **The session over any run of collections and closings**, whatever the driver answers: it is
opened before it is used and closed once, a collection returns, and a closing closes it. -/
theorem gpu_session_kept (nvml : Nvml) (processName : ℤ → Option String) (w : GpuWorld)
    (h : Reach (gpuStep nvml processName) Anyhow {} w) :
    (session w.history = some w.initialized ∧ w.module = w.initialized) ∧
      (∃ result w', GpuMetricsCollector.collect nvml processName w = .ok result w' ∧
        Collected result w') ∧
      ∃ w', GpuMetricsCollector.close nvml w = .ok () w' ∧ Closed w' := by
  have hw := reached_kept h
  refine ⟨?_, Triple.returns (collect_kept.startingAt hw), ?_⟩
  · obtain ⟨hmodule, hinitialized, hsession⟩ | ⟨hmodule, hinitialized, hsession⟩ := hw
    · rw [hmodule, hinitialized, hsession]
      exact ⟨rfl, rfl⟩
    · rw [hmodule, hinitialized, hsession]
      exact ⟨rfl, rfl⟩
  · obtain ⟨u, w', hrun, hclosed⟩ :=
      Triple.returns ((@GpuMetricsCollector.close_closed nvml).startingAt hw)
    exact ⟨w', hrun, hclosed⟩

/-- Two devices, of which the second does not answer, and a first count that fails. -/
def failingNvml : Nvml where
  load := fun _ => .ok ()
  init := fun _ => .ok ()
  shutdown := fun _ => .error "NVMLERROR_UNKNOWN"
  deviceGetCount := fun history =>
    if history.length < 2 then .error "NVMLERROR_UNKNOWN" else .ok 2
  deviceGetHandleByIndex := fun index _ =>
    if index = 1 then .error "NVMLERROR_GPUISLOST" else .ok index
  memoryInfo := fun _ _ => .ok { total := 8, used := 3, free := 5 }
  number := fun _ _ _ => .ok 40
  processes := fun _ _ _ => .ok [{ pid := 7, usedGpuMemory := some 3 }]
  text := fun _ _ _ => .ok "GPU"

def noName (_ : ℤ) : Option String := none

/-- A collection that fails, and one that finds the second device lost. -/
def afterTwo : GpuWorld :=
  finalState (GpuMetricsCollector.collect failingNvml noName
    (finalState (GpuMetricsCollector.collect failingNvml noName {})))

theorem gpu_session_kept_failing :
    (session afterTwo.history = some afterTwo.initialized ∧
        afterTwo.module = afterTwo.initialized) ∧
      (∃ result w', GpuMetricsCollector.collect failingNvml noName afterTwo = .ok result w' ∧
        Collected result w') ∧
      ∃ w', GpuMetricsCollector.close failingNvml afterTwo = .ok () w' ∧ Closed w' := by
  have hcollect (w : GpuWorld) : gpuStep failingNvml noName w .collect
      (finalState (GpuMetricsCollector.collect failingNvml noName w)) := rfl
  refine gpu_session_kept failingNvml noName afterTwo ?_
  exact (Reach.start.next trivial (hcollect _)).next trivial (hcollect _)

example : afterTwo.history.take 4 =
    [(.init, true), (.deviceGetCount, false), (.shutdown, false), (.init, true)] := by
  decide +kernel

end MachineDeck.Dashboard

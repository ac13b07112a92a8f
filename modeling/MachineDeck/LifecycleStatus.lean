import Mathlib.Data.Finset.Insert

/-!
# Instance statuses and their transitions

`schemas/lifecycle.py` and `orchestration/state_machine.py`.

* `ApplicationStatus`, `ExecutionStatus` — the persisted statuses;
* `allowedTransitions`, `requireTransition` — the state machine;
* `requireTransition_checking_starting` — the second half of a start is never refused.
-/

namespace MachineDeck

inductive ApplicationStatus where
  | stopped | queued | checking | starting | running | unhealthy | stopping | failed | unknown
  | disabled
  deriving DecidableEq, Repr

/-- The text that is persisted. -/
def ApplicationStatus.value : ApplicationStatus → String
  | .stopped => "STOPPED"
  | .queued => "QUEUED"
  | .checking => "CHECKING"
  | .starting => "STARTING"
  | .running => "RUNNING"
  | .unhealthy => "UNHEALTHY"
  | .stopping => "STOPPING"
  | .failed => "FAILED"
  | .unknown => "UNKNOWN"
  | .disabled => "DISABLED"

inductive ExecutionStatus where
  | running | succeeded | failed
  deriving DecidableEq, Repr

/-- `ALLOWED_TRANSITIONS`. -/
def allowedTransitions : ApplicationStatus → List ApplicationStatus
  | .stopped => [.checking, .disabled]
  | .checking => [.starting, .queued, .failed, .stopped]
  | .queued => [.checking, .stopped]
  | .starting => [.running, .unhealthy, .failed, .stopped]
  | .running => [.starting, .stopping, .unhealthy, .failed, .unknown]
  | .unhealthy => [.running, .starting, .stopping, .failed]
  | .stopping => [.stopped, .failed]
  | .failed => [.checking, .stopping, .stopped]
  | .unknown => [.checking, .running, .stopping, .stopped, .failed]
  | .disabled => [.stopped]

/-- The message of `InvalidStateTransitionError`. -/
def invalidTransition (current target : ApplicationStatus) : String :=
  s!"Invalid state transition: {current.value} -> {target.value}"

/-- Whether `require_transition` returns. -/
def requireTransition (current target : ApplicationStatus) : Bool :=
  current == target || (allowedTransitions current).contains target

/-- `CHECKING`, however it was reached, lets `STARTING` through. -/
theorem requireTransition_checking_starting :
    requireTransition .checking .starting = true := rfl

/-! ### Actions -/

inductive Action where
  | start | stop | restart
  deriving DecidableEq, Repr

def Action.name : Action → String
  | .start => "start"
  | .stop => "stop"
  | .restart => "restart"

/-- `action in {"start", "stop", "restart"}`. -/
def Action.ofName (name : String) : Option Action :=
  if name = "start" then some .start
  else if name = "stop" then some .stop
  else if name = "restart" then some .restart
  else none

/-- An action that brings the workload up. -/
def Action.starts : Action → Bool
  | .stop => false
  | _ => true

/-- The transition whose refusal rejects the action: the first one it makes. -/
def Action.firstStatus : Action → ApplicationStatus
  | .start => .checking
  | .stop => .stopping
  | .restart => .starting

/-- The status in which the adapter is called. -/
def Action.enteredStatus : Action → ApplicationStatus
  | .stop => .stopping
  | _ => .starting

/-- The statuses that confirm an action. -/
def Action.expected : Action → List ApplicationStatus
  | .stop => [.stopped]
  | _ => [.starting, .running, .unhealthy]

end MachineDeck

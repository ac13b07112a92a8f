import Mathlib.Data.Int.Notation
import Mathlib.Data.Nat.Notation
import Mathlib.Data.String.Basic

/-!
# Log events

`logging/models.py`: what an adapter yields and what the log WebSocket sends.
-/

namespace MachineDeck.Logs

/-- Microseconds since the epoch. -/
abbrev Instant := ℤ

inductive LogSource where
  | journal
  | docker
  deriving DecidableEq, Repr

inductive LogStream where
  | stdout
  | stderr
  | unknown
  deriving DecidableEq, Repr

structure LogEvent where
  applicationId : String
  timestamp : Instant
  source : LogSource
  stream : LogStream := .unknown
  message : String
  service : Option String := none
  containerId : Option String := none
  cursor : Option String := none
  sequence : Option ℕ := none
  truncated : Bool := false
  originalSize : Option ℕ := none
  deriving DecidableEq, Repr

/-- An envelope, by its type and with the data the WebSocket puts into it. -/
inductive LogEnvelope where
  | log (event : LogEvent)
  | status (state : String)
  | warning (code : String) (count : ℕ)
  | error (code message : String)
  | eof (reason : String)
  deriving DecidableEq, Repr

end MachineDeck.Logs

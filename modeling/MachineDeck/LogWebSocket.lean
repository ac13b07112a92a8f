import MachineDeck.LogModels
import MachineDeck.GuardedRuns

/-!
# The log WebSocket

`application_logs` of `api/log_websocket.py`, from the first history event on.

* `enqueueBounded` — the queue that gives up its oldest item;
* `Phase`, `Connection` — where the handler stands, and what it shares with the producer;
* `Connection.step` — one step of the producer, of the handler, or the end of the connection;
* `Moves` — every interleaving of them.

A handler that waits for a send is in the phase of that send, so the producer may run before it
is over.  `produced` and `ending` only record what the producer did.
-/

namespace MachineDeck.Logs

/-! ### The bounded queue -/

inductive Item where
  | event (event : LogEvent)
  | envelope (envelope : LogEnvelope)
  deriving DecidableEq, Repr

/-- `queue.full()`; a queue of size zero has no bound. -/
def full (maxsize : ℕ) (queue : List Item) : Bool := decide (0 < maxsize ∧ maxsize ≤ queue.length)

def enqueueBounded (maxsize : ℕ) (queue : List Item) (item : Item) (dropped : ℕ) :
    List Item × ℕ :=
  if full maxsize queue then
    match queue with
    | [] => ([item], dropped)
    | _ :: rest => (rest ++ [item], dropped + 1)
  else (queue ++ [item], dropped)

def logQueueSize : ℕ := 1000

/-! ### The connection -/

inductive Phase where
  /-- Sending the history, these events still to come. -/
  | history (rest : List LogEvent)
  | waiting
  | holding (item : Item)
  /-- The counter is read and reset, the warning is being sent. -/
  | warning (count : ℕ) (item : Item)
  | sending (item : Item)
  | finished
  | gone
  deriving DecidableEq, Repr

structure Connection where
  shouldFollow : Bool := true
  phase : Phase
  queue : List Item := []
  dropped : ℕ := 0
  sequence : ℕ := 0
  sent : List LogEnvelope := [.status "connected"]
  produced : List LogEvent := []
  ending : Option LogEnvelope := none
  deriving DecidableEq, Repr

def start (history : List LogEvent) (shouldFollow : Bool) : Connection :=
  { shouldFollow := shouldFollow, phase := .history history }

def LogEvent.numbered (event : LogEvent) (sequence : ℕ) : LogEvent :=
  { event with sequence := some sequence }

def LogEnvelope.isTerminal : LogEnvelope → Bool
  | .error _ _ => true
  | .eof _ => true
  | _ => false

def logSourceClosed : LogEnvelope := .eof "log_source_closed"

def logSourceUnavailable (message : String) : LogEnvelope :=
  .error "LOG_SOURCE_UNAVAILABLE" message

/-- The producer runs from the moment the handler first waits to the end of the connection. -/
def Phase.following : Phase → Bool
  | .history _ => false
  | .finished => false
  | .gone => false
  | _ => true

def Connection.sendLog (s : Connection) (event : LogEvent) : Connection :=
  { s with
    sequence := s.sequence + 1
    sent := s.sent ++ [.log (event.numbered (s.sequence + 1))] }

def Connection.enqueue (maxsize : ℕ) (s : Connection) (item : Item) : Connection :=
  { s with
    queue := (enqueueBounded maxsize s.queue item s.dropped).1
    dropped := (enqueueBounded maxsize s.queue item s.dropped).2 }

inductive Label where
  | produce (event : LogEvent)
  | sourceCloses
  | sourceFails (message : String)
  | take
  | resume
  | deliver
  | hangUp

/-- What the producer may do until it has queued its last envelope. -/
def Connection.produces (s : Connection) : Bool := s.phase.following && s.ending.isNone

def Connection.finish (maxsize : ℕ) (s : Connection) (envelope : LogEnvelope) : Connection :=
  { s.enqueue maxsize (.envelope envelope) with ending := some envelope }

/-- The send that the handler waits for is over. -/
def Connection.deliver (s : Connection) : Option Connection :=
  match s.phase with
  | .history (event :: rest) => some { s.sendLog event with phase := .history rest }
  | .history [] =>
    if s.shouldFollow then some { s with phase := .waiting }
    else some { s with sent := s.sent ++ [.eof "history_complete"], phase := .finished }
  | .warning count item =>
    some { s with
      sent := s.sent ++ [.warning "LOG_MESSAGES_DROPPED" count]
      phase := .sending item }
  | .sending (.event event) => some { s.sendLog event with phase := .waiting }
  | .sending (.envelope envelope) =>
    some { s with
      sent := s.sent ++ [envelope]
      phase := if envelope.isTerminal then .finished else .waiting }
  | _ => none

def Connection.step (maxsize : ℕ) (s : Connection) : Label → Option Connection
  | .produce event =>
    if s.produces then
      some { s.enqueue maxsize (.event event) with produced := s.produced ++ [event] }
    else none
  | .sourceCloses => if s.produces then some (s.finish maxsize logSourceClosed) else none
  | .sourceFails message =>
    if s.produces then some (s.finish maxsize (logSourceUnavailable message)) else none
  | .take =>
    match s.phase, s.queue with
    | .waiting, item :: rest => some { s with phase := .holding item, queue := rest }
    | _, _ => none
  | .resume =>
    match s.phase with
    | .holding item =>
      if s.dropped ≠ 0 then some { s with phase := .warning s.dropped item, dropped := 0 }
      else some { s with phase := .sending item }
    | _ => none
  | .deliver => s.deliver
  | .hangUp => if s.phase = .finished then none else some { s with phase := .gone }

def Moves (maxsize : ℕ) (s : Connection) (label : Label) (s' : Connection) : Prop :=
  s.step maxsize label = some s'

end MachineDeck.Logs

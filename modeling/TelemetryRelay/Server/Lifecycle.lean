import TelemetryRelay.Catalog.Basic
import TelemetryRelay.Configuration.Validate
import TelemetryRelay.Relay.Flow

/-!
# The life of a server

A server is started once and stopped once. A start acquires the backends in a fixed order and, at
the first call that fails or takes too long, releases what it has acquired and reports that call. A
stop ends the two tasks and then releases the backends. Releasing goes in reverse order of
acquisition and always to its end, whatever becomes of each call; no call is waited for longer than
its limit.

Time passes only where a call never finishes: every other call takes none.
-/

namespace TelemetryRelay

/-- The calls that were made, in order, and how long was waited for them, in milliseconds. -/
structure Trail where
  calls : List Call := []
  waited : Nat := 0
deriving DecidableEq, Repr

namespace Trail

/-- Adds a call. -/
def call (t : Trail) (c : Call) : Trail := { t with calls := t.calls ++ [c] }

/-- Adds a wait. -/
def wait (t : Trail) (milliseconds : Nat) : Trail := { t with waited := t.waited + milliseconds }

end Trail

/-- How long the caller of a start waits before it gives the start up; none is for ever. -/
abbrev Patience := Option Nat

/-- Whether a wait lasts longer than the caller's patience. -/
def Patience.endsBefore (p : Patience) (time : Nat) : Bool := p.any (· < time)

/-- A trail that breaks off when the patience ends. -/
def Trail.breakOff (t : Trail) (p : Patience) : Trail := { t with waited := p.getD t.waited }

/-- What a start reports. -/
inductive StartResult where
  /-- The server runs; the ports it listens on, and how many channels it subscribed to. -/
  | ready (port wssPort channels : Nat)
  | failed (e : StartError)
  /-- The caller gave up first. -/
  | abandoned
deriving DecidableEq, Repr

/-- A server. -/
structure Server where
  config : ServerConfig
  /-- The text of the archive's URL. -/
  archiveUrl : String
  phase : Phase := .unstarted
  /-- The backends that are acquired and not released yet, the last acquired first. -/
  handles : List Backend := []
  flow : Flow
  /-- What the HTTP listener serves, once it is bound; the archive in it is the server's own. -/
  catalog : Option (Catalog Unit) := none

/-- How the acquiring calls ended. -/
inductive Ending where
  | complete
  | refused (a : Acquiring) (obstacle : Obstacle)
  | abandoned
deriving DecidableEq, Repr

/-- Makes calls until one does not succeed; `handles` are the backends acquired so far, the last
first. -/
def acquire (limit : Nat) (patience : Patience) (outcome : Call → Outcome) :
    List Acquiring → List Backend → Trail → Ending × List Backend × Trail
  | [], handles, trail => (.complete, handles, trail)
  | a :: rest, handles, trail =>
    let trail := trail.call (.acquire a)
    match outcome (.acquire a) with
    | .succeeds => acquire limit patience outcome rest (a.gains.toList ++ handles) trail
    | .fails causes => (.refused a (.failure causes), handles, trail)
    | .hangs =>
      if patience.endsBefore (trail.waited + limit) then
        (.abandoned, handles, trail.breakOff patience)
      else (.refused a (.timeout limit), handles, trail.wait limit)

/-- Closes backends one after the other. Returns those that are left when the caller's patience
ends. -/
def release (limit : Nat) (patience : Patience) (outcome : Call → Outcome) :
    List Backend → Trail → List Backend × Trail × Bool
  | [], trail => ([], trail, true)
  | b :: rest, trail =>
    let trail := trail.call (.close b)
    match outcome (.close b) with
    | .hangs =>
      if patience.endsBefore (trail.waited + limit) then (rest, trail.breakOff patience, false)
      else release limit patience outcome rest (trail.wait limit)
    | _ => release limit patience outcome rest trail

namespace Server

/-- **A server for a configuration**, which is checked first. -/
def create (config : ServerConfig) (clients : Registry) : Except ConfigError Server := do
  config.validate
  let url ← config.history.url
  let flow : Flow := { dictionaries := config.dictionaries, clients }
  return { config, archiveUrl := url.text, flow }

/-- The calls of a start, in order. -/
def attempts (s : Server) : List Acquiring :=
  [.connect s.config.brokerUrl] ++ s.config.channels.map .subscribe ++
    [.bindWebSocket s.config.host s.config.wssPort, .bindHttp s.config.host s.config.port,
      .openHistory s.archiveUrl s.config.history.db]

/-- A host and a port as one text. -/
def hostAndPort (host : String) (port : Nat) : String := host ++ ":" ++ Decimal.natText port

/-- The error for a call that did not succeed. -/
def refusal (s : Server) (a : Acquiring) (obstacle : Obstacle) : StartError :=
  match a with
  | .connect url => .connect .broker url obstacle
  | .subscribe channel => .subscribe s.config.brokerUrl channel obstacle
  | .bindWebSocket host port => .bind .webSocket (hostAndPort host port) obstacle
  | .bindHttp host port => .bind .http (hostAndPort host port) obstacle
  | .openHistory url db => .connect .history (url ++ " (" ++ db ++ ")") obstacle

/-- What the HTTP listener serves when these backends are acquired. -/
def catalogOf (s : Server) (handles : List Backend) : Option (Catalog Unit) :=
  if handles.contains .http then
    some ⟨s.config.dictionaries, if handles.contains .history then some () else none⟩
  else none

/-- Closing the WebSocket listener disconnects its clients, if the call succeeds. -/
def afterRelease (outcome : Call → Outcome) (closed : List Backend) (clients : Registry) :
    Registry :=
  if closed.contains .webSocket && outcome (.close .webSocket) == .succeeds then
    clients.disconnectAll
  else clients

/-- Closes every backend that is still held, as far as the caller's patience goes; also whether it
lasted. -/
def releaseAll (s : Server) (patience : Patience) (outcome : Call → Outcome) (trail : Trail) :
    Bool × Server × Trail :=
  let (left, trail, finished) := release s.config.shutdownTimeout patience outcome s.handles trail
  let closed := s.handles.take (s.handles.length - left.length)
  (finished,
    { s with
      handles := left
      flow := { s.flow with clients := afterRelease outcome closed s.flow.clients } },
    trail)

/-- **Starts a server** that has not been started before. The messages `early` arrive before the
router runs. -/
def start (s : Server) (outcome : Call → Outcome) (patience : Patience) (early : List Message) :
    StartResult × Server × Trail :=
  if s.phase ≠ .unstarted then (.failed (.invalidState s.phase), s, {})
  else
    let (ending, handles, trail) :=
      acquire s.config.connectTimeout patience outcome s.attempts [] {}
    let s := { s with phase := .starting, handles, catalog := s.catalogOf handles }
    match ending with
    | .complete =>
      (.ready s.config.port s.config.wssPort s.config.channels.length,
        { s with phase := .running, flow := s.flow.launch early }, trail)
    | .abandoned => (.abandoned, s, trail)
    | .refused a obstacle =>
      match s.releaseAll patience outcome trail with
      | (true, s, trail) => (.failed (s.refusal a obstacle), { s with phase := .failed }, trail)
      | (false, s, trail) => (.abandoned, s, trail)

/-- Waits for the router, and aborts it if it does not end in time. -/
def joinRouter (s : Server) (trail : Trail) : Server × Trail :=
  if s.flow.routerEnded then (s, trail)
  else ({ s with flow := s.flow.endRouter }, trail.wait s.config.shutdownTimeout)

/-- Waits for the writer, and aborts it if it does not end in time. -/
def joinWriter (s : Server) (trail : Trail) : Server × Trail :=
  if s.flow.writerEnded then (s, trail)
  else ({ s with flow := s.flow.endWriter }, trail.wait s.config.shutdownTimeout)

/-- Lets both tasks run until neither can go on. -/
def settle (s : Server) (now : Int) (write : Record → Outcome) : Server :=
  { s with flow := s.flow.settle now write }

/-- **Stops a running server**: the router is told to stop and waited for, then the writer, which
first writes what is queued; then the backends are released. -/
def stop (s : Server) (now : Int) (outcome : Call → Outcome) (write : Record → Outcome) :
    Server × Trail :=
  if s.phase ≠ .running then (s, {})
  else
    let s := { s with flow := s.flow.signal }.settle now write
    let (s, trail) := s.joinRouter {}
    let (s, trail) := (s.settle now write).joinWriter trail
    let (_, s, trail) := s.releaseAll none outcome trail
    ({ s with phase := .stopped }, trail)

end Server

end TelemetryRelay

import TelemetryRelay.Clients.Registry

/-!
# The listener for clients

A client connects in two steps: the listener accepts it, and later its session begins and lists it.
The session takes frames from the client's queue until it ends, by itself or because the queue has
ended. Closing the listener removes every client that is listed, then accepts no more, and then
waits for what is still being answered; sessions are not waited for.

`Listener.allows` says when each single action is possible and `Listener.after` what it does. A send
is two actions, the look-up and the delivery, and holds on to the sending end of the queue in
between.
-/

namespace TelemetryRelay

/-- How far the closing of a listener has come. -/
inductive ClosingStage where
  | notBegun
  /-- The clients have been removed. -/
  | emptied
  /-- No more clients are accepted. -/
  | refusing
  | closed
deriving DecidableEq, Repr

/-- A listener. -/
structure Listener where
  registry : Registry
  /-- How many accepted clients have no session yet. -/
  accepted : Nat := 0
  /-- The clients whose sessions have begun, in order. -/
  sessions : List ClientId := []
  /-- The sends that have found their queue and not delivered yet. -/
  sending : List (ClientId × String) := []
  closing : ClosingStage := .notBegun
deriving DecidableEq, Repr

/-- One thing that happens around a listener. -/
inductive ListenerAction where
  /-- A client is accepted. -/
  | accept
  /-- The session of an accepted client begins. -/
  | beginSession
  /-- A session takes the oldest frame from its queue, if one waits. -/
  | take (client : ClientId)
  /-- A session ends: it removes its client and gives up the queue. -/
  | endSession (client : ClientId)
  /-- A send looks up the queue of a client. -/
  | lookUp (client : ClientId) (payload : String)
  /-- A send that has found its queue delivers the frame. -/
  | deliver (client : ClientId) (payload : String)
  /-- The closing removes every client. -/
  | empty
  /-- The closing stops accepting. -/
  | refuse
  /-- The closing is done. -/
  | finish
deriving DecidableEq, Repr

namespace Listener

/-- A listener that has just been bound. -/
def bound (capacity : Nat) : Listener := { registry := ⟨capacity, []⟩ }

/-- Whether clients are still accepted. -/
def isAccepting (l : Listener) : Bool := l.closing == .notBegun || l.closing == .emptied

/-- Whether the session of a client runs: it holds the receiving end of the queue. -/
def isRunning (l : Listener) (client : ClientId) : Bool :=
  (l.registry.queue? client).any (·.receiving)

/-- What a session gets that asks for a frame now. A queue has ended when its client is no longer
listed and no send holds on to it. -/
def received (l : Listener) (client : ClientId) : Received :=
  match (l.registry.receive client).1 with
  | .closed => if l.sending.any (·.1 == client) then .empty else .closed
  | other => other

/-- Whether an action is possible now. -/
def allows (l : Listener) : ListenerAction → Bool
  | .accept => l.isAccepting
  | .beginSession => 0 < l.accepted
  | .endSession client => l.isRunning client
  | .deliver client payload => (client, payload) ∈ l.sending
  | .empty => l.closing == .notBegun
  | .refuse => l.closing == .emptied
  | .finish => l.closing == .refusing
  | .take _ | .lookUp _ _ => true

/-- **What an action leaves** of a listener. -/
def after (l : Listener) : ListenerAction → Listener
  | .accept => { l with accepted := l.accepted + 1 }
  | .beginSession =>
    let (client, registry) := l.registry.register
    { l with registry, accepted := l.accepted - 1, sessions := l.sessions ++ [client] }
  | .take client => { l with registry := (l.registry.receive client).2 }
  | .endSession client =>
    { l with registry := ((l.registry.unregister client).dropReceiver client).2 }
  | .lookUp client payload =>
    if l.registry.isListed client then { l with sending := l.sending ++ [(client, payload)] } else l
  | .deliver client payload =>
    { l with
      registry := (l.registry.offer client payload).2
      sending := l.sending.erase (client, payload) }
  | .empty => { l with registry := l.registry.disconnectAll, closing := .emptied }
  | .refuse => { l with closing := .refusing }
  | .finish => { l with closing := .closed }

/-- Takes an action; none if it is not possible now. -/
def step (l : Listener) (a : ListenerAction) : Option Listener :=
  if l.allows a then some (l.after a) else none

/-- Runs actions one after the other; none if one of them is not possible. -/
def run (l : Listener) : List ListenerAction → Option Listener
  | [] => some l
  | a :: rest => (l.step a).bind (run · rest)

end Listener

end TelemetryRelay

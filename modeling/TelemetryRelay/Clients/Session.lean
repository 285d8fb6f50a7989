import TelemetryRelay.Clients.Sharing

/-!
# Sessions of clients

A session serves one client of a registry that others use too. One loop takes frames from the
client's queue and writes them to its socket; when the queue has ended or the socket has failed, it
says goodbye. Another loop reads what the client sends, to notice that it goes. The first loop to
end ends the session, wherever the other one stands. Then the session removes its client from the
registry, and after that it gives up the queue.

Between any two actions of the session others may use the registry.

* `ClientSession.request?` says what an action does to the registry.
* `ClientSession.stage?` says when an action is possible and where it leads.
* `ClientSession.step` is the action, `ClientSession.run` makes actions one after the other.
-/

namespace TelemetryRelay

/-- What a session reads from its client. -/
inductive Inbound where
  /-- A message that is no goodbye. -/
  | message
  | goodbye
  /-- The connection can no longer be read. -/
  | failure
  /-- The connection has ended. -/
  | finish
deriving DecidableEq, Repr

/-- Whether reading ends with it. -/
def Inbound.isLast : Inbound → Bool
  | .message => false
  | .goodbye | .failure | .finish => true

/-- Where a session stands. -/
inductive SessionStage where
  /-- It waits for a frame. -/
  | waiting
  /-- It sends a frame that the socket has not taken yet. -/
  | sending (payload : String)
  /-- The socket has taken the frame and is flushed. -/
  | flushing
  /-- It says goodbye. A frame at which the socket failed may still go out before. -/
  | closing (held : Option String)
  /-- One of its loops has ended. -/
  | leaving
  /-- It has removed its client. -/
  | removed
  /-- It has given up the queue. -/
  | ended
deriving DecidableEq, Repr

namespace SessionStage

/-- Whether both loops still run. -/
def isOpen : SessionStage → Bool
  | .waiting | .sending _ | .flushing | .closing _ => true
  | .leaving | .removed | .ended => false

/-- The frame that the session has in hand, for the socket to take. -/
def held? : SessionStage → Option String
  | .sending payload => some payload
  | .closing held => held
  | _ => none

end SessionStage

/-- A session and the registry in which its client is listed. -/
structure ClientSession where
  shared : SharedRegistry
  client : ClientId
  stage : SessionStage := .waiting
  /-- The frames that the socket has taken, oldest first. -/
  written : List String := []
deriving DecidableEq, Repr

/-- One thing that happens around a session. -/
inductive SessionAction where
  /-- The session takes the oldest frame from its queue, or finds that the queue has ended. -/
  | take
  /-- The socket takes the frame that the session has in hand. -/
  | write
  /-- The socket has been flushed. -/
  | flush
  /-- The socket fails at a frame. -/
  | fail
  /-- The goodbye is through, or the socket has failed at it. -/
  | sayGoodbye
  /-- The session reads what comes from its client. -/
  | read (inbound : Inbound)
  /-- The session removes its client. -/
  | remove
  /-- The session gives up the queue. -/
  | giveUp
  /-- Somebody else does something to the registry. -/
  | other (action : RegistryAction)
deriving DecidableEq, Repr

namespace ClientSession

/-- Opens a session for a new client. -/
def opened (shared : SharedRegistry) : ClientSession :=
  { shared := shared.after (.event .join), client := shared.registry.register.1 }

/-- Whether it can come from elsewhere: only the session itself holds the receiving end. -/
def concernsOthers (s : ClientSession) : RegistryAction → Bool
  | .event (.receive client) | .event (.leave client) => client != s.client
  | _ => true

/-- What an action does to the registry. -/
def request? (s : ClientSession) : SessionAction → Option RegistryAction
  | .take => some (.event (.receive s.client))
  | .remove => some (.event (.remove s.client))
  | .giveUp => some (.event (.leave s.client))
  | .other action => some action
  | .write | .flush | .fail | .sayGoodbye | .read _ => none

/-- The stage to which an action leads; none if it is not possible now. -/
def stage? (s : ClientSession) : SessionAction → Option SessionStage
  | .take =>
    match s.stage, s.shared.received s.client with
    | .waiting, .frame payload => some (.sending payload)
    | .waiting, .closed => some (.closing none)
    | _, _ => none
  | .write =>
    match s.stage with
    | .sending _ => some .flushing
    | .closing (some _) => some (.closing none)
    | _ => none
  | .flush =>
    match s.stage with
    | .flushing => some .waiting
    | _ => none
  | .fail =>
    match s.stage with
    | .sending payload => some (.closing (some payload))
    | .flushing => some (.closing none)
    | _ => none
  | .sayGoodbye =>
    match s.stage with
    | .closing _ => some .leaving
    | _ => none
  | .read inbound =>
    if s.stage.isOpen then some (if inbound.isLast then .leaving else s.stage) else none
  | .remove =>
    match s.stage with
    | .leaving => some .removed
    | _ => none
  | .giveUp =>
    match s.stage with
    | .removed => some .ended
    | _ => none
  | .other action =>
    if s.shared.allows action && s.concernsOthers action then some s.stage else none

/-- The frame that the socket takes by an action. -/
def writes (s : ClientSession) : SessionAction → List String
  | .write => s.stage.held?.toList
  | _ => []

/-- What an action that leads to a stage leaves. -/
def moved (s : ClientSession) (a : SessionAction) (stage : SessionStage) : ClientSession :=
  { s with
    shared := (s.request? a).elim s.shared s.shared.after
    stage
    written := s.written ++ s.writes a }

/-- **What an action does**; none if it is not possible now. -/
def step (s : ClientSession) (a : SessionAction) : Option ClientSession :=
  (s.stage? a).map (s.moved a)

/-- Runs actions one after the other; none if one of them is not possible. -/
def run (s : ClientSession) : List SessionAction → Option ClientSession
  | [] => some s
  | a :: rest => (s.step a).bind (run · rest)

end ClientSession

end TelemetryRelay

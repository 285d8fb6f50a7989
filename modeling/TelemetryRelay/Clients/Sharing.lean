import TelemetryRelay.Clients.Registry

/-!
# A registry in use by several

The relay sends through the registry while sessions begin, receive and end, and while the listener
closes, each at its own time. A send is two actions, the look-up and the delivery. In between it
holds the sending end of the queue, whatever becomes of its client in the meantime.

`SharedRegistry.allows` says when an action is possible, `SharedRegistry.answer` what it is answered
and `SharedRegistry.after` what it leaves. `SharedRegistry.run` makes actions one after the other
and keeps a log of them and of their answers.
-/

namespace TelemetryRelay

/-- A registry, and the sends that have found their queue and not delivered yet. -/
structure SharedRegistry where
  registry : Registry
  sending : List (ClientId × String) := []
deriving DecidableEq, Repr

/-- One thing that is done to a shared registry. -/
inductive RegistryAction where
  | event (event : ClientEvent)
  /-- A send looks up the queue of its client. -/
  | lookUp (client : ClientId) (payload : String)
  /-- A send that has found its queue delivers the frame. -/
  | deliver (client : ClientId) (payload : String)
deriving DecidableEq, Repr

/-- What an action is answered. -/
inductive RegistryAnswer where
  | joined (client : ClientId)
  | received (what : Received)
  /-- The look-up has found the queue. -/
  | found
  /-- The send is over. -/
  | sent (result : Except SendFault Unit)
  | done

/-- An action and its answer. -/
structure RegistryEntry where
  action : RegistryAction
  answer : RegistryAnswer

namespace SharedRegistry

/-- A registry that nobody has used yet. -/
def fresh (capacity : Nat) : SharedRegistry := { registry := ⟨capacity, []⟩ }

/-- What a receiving end gives. A queue has ended when its client is no longer listed and no send
holds on to it. -/
def received (s : SharedRegistry) (client : ClientId) : Received :=
  match (s.registry.receive client).1 with
  | .closed => if s.sending.any (·.1 == client) then .empty else .closed
  | other => other

/-- Whether an action is possible now. -/
def allows (s : SharedRegistry) : RegistryAction → Bool
  | .deliver client payload => s.sending.contains (client, payload)
  | .event _ | .lookUp _ _ => true

/-- **What an action is answered.** -/
def answer (s : SharedRegistry) : RegistryAction → RegistryAnswer
  | .event .join => .joined s.registry.register.1
  | .event (.receive client) => .received (s.received client)
  | .event _ => .done
  | .lookUp client _ =>
    if s.registry.isListed client then .found else .sent (.error (.disconnected client))
  | .deliver client payload => .sent (s.registry.offer client payload).1

/-- **What an action leaves.** -/
def after (s : SharedRegistry) : RegistryAction → SharedRegistry
  | .event e => { s with registry := s.registry.after e }
  | .lookUp client payload =>
    if s.registry.isListed client then { s with sending := s.sending ++ [(client, payload)] } else s
  | .deliver client payload =>
    { registry := (s.registry.offer client payload).2
      sending := s.sending.erase (client, payload) }

/-- Makes actions one after the other; none if one of them is not possible. -/
def run (s : SharedRegistry) : List RegistryAction → Option (List RegistryEntry × SharedRegistry)
  | [] => some ([], s)
  | a :: rest =>
    if s.allows a then
      ((s.after a).run rest).map fun (log, t) => (⟨a, s.answer a⟩ :: log, t)
    else none

end SharedRegistry

end TelemetryRelay

/-!
# Client registry

Every connected client has an outbound queue of bounded length. The registry holds the sending
ends and lists the clients that have one; the sessions hold the receiving ends. Sending never
waits: a frame for a full queue is dropped, and a client whose receiving end is gone is removed.

A send is made of two steps, the look-up (`isListed`) and the delivery (`offer`), between which
other operations may come.
-/

namespace TelemetryRelay

/-- The number of a client, in order of connection. -/
abbrev ClientId := Nat

/-- An outbound queue. -/
structure Outbound where
  /-- Whether the registry still holds the sending end. -/
  listed : Bool
  /-- Whether the receiving end is still held. -/
  receiving : Bool
  /-- The frames that wait, oldest first. -/
  queued : List String
deriving DecidableEq, Repr

/-- The queues of all clients that ever connected; the client `n` has the one at place `n - 1`. -/
structure Registry where
  capacity : Nat
  queues : List Outbound := []
deriving DecidableEq, Repr

/-- Why a frame was not queued. -/
inductive SendFault where
  | disconnected (client : ClientId)
  | queueFull (client : ClientId)
deriving DecidableEq, Repr

/-- The sentence for a send fault. -/
def SendFault.message : SendFault → String
  | .disconnected client => "client " ++ toString client ++ " is no longer connected"
  | .queueFull client => "outbound queue for client " ++ toString client ++ " is full"

/-- What a receiving end gives. -/
inductive Received where
  | frame (payload : String)
  /-- Nothing waits, but more may come. -/
  | empty
  /-- Nothing waits, and the sending end is gone. -/
  | closed
  /-- The receiving end is not held. -/
  | noReceiver
deriving DecidableEq, Repr

namespace Registry

/-- How many frames may wait for a client of the server. -/
def defaultCapacity : Nat := 256

/-- The queue of a client. -/
def queue? (r : Registry) (client : ClientId) : Option Outbound :=
  if client = 0 then none else r.queues[client - 1]?

/-- Changes the queue of a client. -/
def update (r : Registry) (client : ClientId) (f : Outbound → Outbound) : Registry :=
  if client = 0 then r else { r with queues := r.queues.modify (client - 1) f }

/-- Whether the client is listed. -/
def isListed (r : Registry) (client : ClientId) : Bool := (r.queue? client).any (·.listed)

/-- The listed clients, in order of connection. -/
def ids (r : Registry) : List ClientId := (List.range' 1 r.queues.length).filter r.isListed

/-- **Lists a new client**, under the next number. -/
def register (r : Registry) : ClientId × Registry :=
  (r.queues.length + 1, { r with queues := r.queues ++ [⟨true, true, []⟩] })

/-- Removes a client; its waiting frames can still be received. -/
def unregister (r : Registry) (client : ClientId) : Registry :=
  r.update client fun q => { q with listed := false }

/-- Removes every client. -/
def disconnectAll (r : Registry) : Registry :=
  { r with queues := r.queues.map fun q => { q with listed := false } }

/-- Delivers a frame into a queue whose sending end is at hand; a client that no longer receives
is removed. -/
def offer (r : Registry) (client : ClientId) (payload : String) :
    Except SendFault Unit × Registry :=
  match r.queue? client with
  | none => (.error (.disconnected client), r)
  | some q =>
    if !q.receiving then (.error (.disconnected client), r.unregister client)
    else if r.capacity ≤ q.queued.length then (.error (.queueFull client), r)
    else (.ok (), r.update client fun q => { q with queued := q.queued ++ [payload] })

/-- **Sends a frame** to a listed client. -/
def send (r : Registry) (client : ClientId) (payload : String) : Except SendFault Unit × Registry :=
  if r.isListed client then r.offer client payload else (.error (.disconnected client), r)

/-- Sends a frame to some clients, one after the other, whatever becomes of each. -/
def sendEach (r : Registry) (payload : String) : List ClientId → Registry
  | [] => r
  | client :: rest => (r.send client payload).2.sendEach payload rest

/-- Sends a frame to every client that is listed. -/
def broadcast (r : Registry) (payload : String) : Registry := r.sendEach payload r.ids

/-- Takes the oldest waiting frame. -/
def receive (r : Registry) (client : ClientId) : Received × Registry :=
  match r.queue? client with
  | none => (.noReceiver, r)
  | some q =>
    if !q.receiving then (.noReceiver, r)
    else
      match q.queued with
      | payload :: rest => (.frame payload, r.update client fun q => { q with queued := rest })
      | [] => (if q.listed then .empty else .closed, r)

/-- Takes every waiting frame. -/
def receiveAll (r : Registry) (client : ClientId) : List String × Registry :=
  match r.queue? client with
  | some q => (q.queued, r.update client fun q => { q with queued := [] })
  | none => ([], r)

/-- Gives up the receiving end, and with it the waiting frames; also whether it was held. -/
def dropReceiver (r : Registry) (client : ClientId) : Bool × Registry :=
  ((r.queue? client).any (·.receiving),
    r.update client fun q => { q with receiving := false, queued := [] })

end Registry

/-- What happens to a registry apart from sending. -/
inductive ClientEvent where
  /-- A client connects. -/
  | join
  /-- A client's session takes its oldest waiting frame. -/
  | receive (client : ClientId)
  /-- A client's session gives up its receiving end. -/
  | leave (client : ClientId)
  /-- A client is removed. -/
  | remove (client : ClientId)
  /-- Every client is removed. -/
  | removeAll
deriving DecidableEq, Repr

/-- What an event leaves of a registry. -/
def Registry.after (r : Registry) : ClientEvent → Registry
  | .join => r.register.2
  | .receive client => (r.receive client).2
  | .leave client => (r.dropReceiver client).2
  | .remove client => r.unregister client
  | .removeAll => r.disconnectAll

end TelemetryRelay

import TelemetryRelay.Broker.Address

/-!
# Sessions with a broker

A connection is opened to the broker's address and becomes a session once the broker accepts it.
While a session is open, channels are subscribed to and messages published, each with at-least-once
delivery; closing it says goodbye to the broker, and everything after that fails.
-/

namespace TelemetryRelay.Broker

/-- Why a broker refuses a connection. -/
inductive Refusal where
  | protocolVersion
  | clientId
  | unavailable
  | badCredentials
  | notAuthorized
  | other (code : Nat)
deriving DecidableEq, Repr

/-- What a broker answers a new connection, by its code; none means that it accepts. -/
def Refusal.ofCode? : Nat → Option Refusal
  | 0 => none
  | 1 => some .protocolVersion
  | 2 => some .clientId
  | 3 => some .unavailable
  | 4 => some .badCredentials
  | 5 => some .notAuthorized
  | code => some (.other code)

/-- What opening a connection meets with. -/
inductive Greeting where
  /-- There is no connection, for a reason of the network's. -/
  | none (reason : String)
  /-- The broker answers with a code. -/
  | code (n : Nat)
deriving DecidableEq, Repr

/-- Why there is no session. -/
inductive OpenFault where
  | address (fault : AddressFault)
  | noConnection (reason : String)
  | refused (refusal : Refusal)
deriving DecidableEq, Repr

/-- The name of a refusal in messages. -/
def Refusal.label : Refusal → String
  | .protocolVersion => "RefusedProtocolVersion"
  | .clientId => "BadClientId"
  | .unavailable => "ServiceUnavailable"
  | .badCredentials => "BadUserNamePassword"
  | .notAuthorized => "NotAuthorized"
  | .other code => Decimal.natText code

/-- The sentence for an open fault. -/
def OpenFault.message : OpenFault → String
  | .address fault => fault.message
  | .noConnection reason => "MQTT connection failed: " ++ reason
  | .refused refusal =>
    "MQTT connection failed: Connection refused, return code: \x60" ++ refusal.label ++ "\x60"

/-- A packet that the broker is sent. -/
inductive Packet where
  | subscribe (topic : String)
  | publish (topic : String) (payload : List UInt8)
  | disconnect
deriving DecidableEq, Repr

/-- The quality of service of every subscription and message: at least once. -/
def qualityOfService : Nat := 1

/-- Why a session did not do what it was told. -/
inductive SessionFault where
  | subscribe (channel : String)
  | publish (channel : String)
  | close
deriving DecidableEq, Repr

/-- The sentence for a session fault. -/
def SessionFault.message : SessionFault → String
  | .subscribe channel => "Failed to subscribe to '" ++ channel ++ "'"
  | .publish channel => "Failed to publish to '" ++ channel ++ "'"
  | .close => "Failed to disconnect from broker"

/-- Whether the levels of a filter may stand there: a wildcard fills its level, and the one for all
further levels comes last. -/
def validLevels : List String → Bool
  | [] => true
  | [last] => last.length == 1 || !(last.contains '#' || last.contains '+')
  | level :: rest =>
    !level.contains '#' && (level.length ≤ 1 || !level.contains '+') && validLevels rest

/-- Whether the text can be subscribed to. -/
def isFilter (topic : String) : Bool := topic != "" && validLevels (topic.splitOn "/")

/-- Whether the text can be published on: it has no wildcard. -/
def isTopic (topic : String) : Bool := !(topic.contains '+' || topic.contains '#')

/-- A session. -/
structure Session where
  isOpen : Bool := true
deriving DecidableEq, Repr

namespace Session

/-- **Opens a session** with the broker at a URL. -/
def connect (url : String) (greeting : Greeting) : Except OpenFault Session :=
  match address url with
  | .error fault => .error (.address fault)
  | .ok _ =>
    match greeting with
    | .none reason => .error (.noConnection reason)
    | .code n =>
      match Refusal.ofCode? n with
      | some refusal => .error (.refused refusal)
      | none => .ok {}

/-- Subscribes to a channel. -/
def subscribe (s : Session) (channel : String) : Except SessionFault Packet :=
  if s.isOpen && isFilter channel then .ok (.subscribe channel) else .error (.subscribe channel)

/-- Publishes a message. -/
def publish (s : Session) (channel : String) (payload : List UInt8) : Except SessionFault Packet :=
  if s.isOpen && isTopic channel then .ok (.publish channel payload) else .error (.publish channel)

/-- Closes the session. -/
def close (s : Session) : Except SessionFault (Packet × Session) :=
  if s.isOpen then .ok (.disconnect, { isOpen := false }) else .error .close

end Session

end TelemetryRelay.Broker

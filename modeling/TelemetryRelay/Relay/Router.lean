import TelemetryRelay.Clients.Registry
import TelemetryRelay.Configuration.Basic
import TelemetryRelay.Frame

/-!
# Routing

What becomes of a message from the broker. `judge` decides it from the message alone: a message on
a channel that no dictionary declares and a payload that is no sample are dropped; any other is
relayed as a frame to the clients and as a record to the archive. The tally counts each message
once.
-/

namespace TelemetryRelay

/-- A message from the broker. -/
structure Message where
  topic : String
  payload : List UInt8
deriving DecidableEq, Repr

/-- A sample on its way to the archive. -/
structure Record where
  dictionary : String
  measurement : String
  time : Int
  value : Float

/-- The counters of a server. -/
structure Tally where
  relayed : Nat := 0
  droppedUnknown : Nat := 0
  droppedMalformed : Nat := 0
  outOfRange : Nat := 0
  historyFailures : Nat := 0
deriving DecidableEq, Repr

/-- Counts a sample that did not reach the archive. -/
def Tally.addFailure (t : Tally) : Tally := { t with historyFailures := t.historyFailures + 1 }

/-- What becomes of a message. -/
inductive Verdict where
  | unknown
  | malformed
  | relay (frame : Frame) (record : Record) (outOfRange : Bool)

namespace Relay

/-- The first dictionary that declares a channel, and its measurement there. -/
def resolve? : List Dictionary → String → Option (Dictionary × Measurement)
  | [], _ => none
  | d :: rest, channel =>
    match d.ofChannel? channel with
    | some m => some (d, m)
    | none => resolve? rest channel

/-- Whether a value lies outside the range of the measurement's first variant. -/
def exceedsRange (m : Measurement) (value : Float) : Bool :=
  m.primary?.any fun schema => schema.isOutOfRange value

/-- **The verdict on a message** that arrives at the time `now`. -/
def judge (dictionaries : List Dictionary) (now : Int) (message : Message) : Verdict :=
  match resolve? dictionaries message.topic with
  | none => .unknown
  | some (d, m) =>
    match Frame.decode message.topic message.payload now with
    | .error _ => .malformed
    | .ok frame =>
      .relay frame ⟨d.key, m.name, frame.timestamp, frame.value⟩ (exceedsRange m frame.value)

end Relay

/-- Counts a verdict. -/
def Tally.count (t : Tally) : Verdict → Tally
  | .unknown => { t with droppedUnknown := t.droppedUnknown + 1 }
  | .malformed => { t with droppedMalformed := t.droppedMalformed + 1 }
  | .relay _ _ outOfRange =>
    { t with
      relayed := t.relayed + 1
      outOfRange := t.outOfRange + (if outOfRange then 1 else 0) }

/-- The record that a verdict sends to the archive. -/
def Verdict.record? : Verdict → Option Record
  | .relay _ record _ => some record
  | _ => none

/-- What the clients see of a verdict. -/
def Verdict.publish (v : Verdict) (clients : Registry) : Registry :=
  match v with
  | .relay frame _ _ => clients.broadcast frame.text
  | _ => clients

end TelemetryRelay

import TelemetryRelay.Json.Parser
import TelemetryRelay.Json.Printer
import TelemetryRelay.Text.Utf8

/-!
# Telemetry frames

A frame is one sample on its way to the clients. `Frame.decode` reads the payload of a broker
message: a document that is a number, or an object with one `value` and at most one `timestamp`.
The channel of the message decides where the sample belongs, whatever the payload says.
-/

namespace TelemetryRelay

/-- One sample of a channel, with its time in milliseconds since the epoch. -/
structure Frame where
  channel : String
  value : Float
  timestamp : Int

/-- The value of a payload and its time, if it gives one. -/
structure Sample where
  value : Float
  timestamp : Option Int

/-- Why a payload was refused. -/
inductive FrameFault where
  /-- The payload is no document. -/
  | notJson
  /-- The payload is a document, but no sample. -/
  | wrongShape
deriving DecidableEq, Repr

/-- The sentence for a document that is no sample. -/
def FrameFault.wrongShapeMessage : String :=
  "data did not match any variant of untagged enum InboundPayload"

namespace Sample

/-- The time that a `timestamp` gives: a whole number of 64 signed bits; null gives none. -/
def timestamp? : Json → Option (Option Int)
  | .null => some none
  | .number (.integer i) => if i ≤ Decimal.int64Max then some (some i) else none
  | _ => none

/-- Reads a sample. An object must have exactly one `value`, a number, and at most one
`timestamp`; its other fields do not matter. -/
def ofJson? : Json → Option Sample
  | .number n => some ⟨n.toFloat, none⟩
  | .object fields =>
    match Json.valuesOf "value" fields, Json.valuesOf "timestamp" fields with
    | [.number n], [] => some ⟨n.toFloat, none⟩
    | [.number n], [time] => (timestamp? time).map (⟨n.toFloat, ·⟩)
    | _, _ => none
  | _ => none

end Sample

namespace Frame

/-- The readable start of a payload, and whether that is all of it. -/
def readable (payload : List UInt8) : List Char × Bool :=
  match Utf8.decode? payload with
  | some text => (text.toList, true)
  | none => (Utf8.wellFormedStart payload, false)

/-- **Decodes a payload** received on `channel`. A sample without a time gets `receivedAt`. The
first document of the payload decides whether the shape is wrong, before what follows it is looked
at. -/
def decode (channel : String) (payload : List UInt8) (receivedAt : Int) :
    Except FrameFault Frame :=
  let (text, complete) := readable payload
  match Json.readDocument text with
  | none => .error .notJson
  | some (document, rest) =>
    match Sample.ofJson? document with
    | none => .error .wrongShape
    | some sample =>
      if complete && rest.all Json.isSpace then
        .ok ⟨channel, sample.value, sample.timestamp.getD receivedAt⟩
      else .error .notJson

/-- The document of a frame. -/
def toJson (f : Frame) : Json :=
  .object [("channelKey", .string f.channel), ("value", .ofFloat f.value),
    ("timestamp", .ofInt f.timestamp)]

/-- The text that clients are sent. -/
def text (f : Frame) : String := f.toJson.compact

/-- Reads the document of a frame, in which each field occurs once. -/
def ofJson? : Json → Option Frame
  | .object fields =>
    match Json.valuesOf "channelKey" fields, Json.valuesOf "value" fields,
      Json.valuesOf "timestamp" fields with
    | [.string channel], [.number value], [time] =>
      (Sample.timestamp? time).bind fun time => time.map (⟨channel, value.toFloat, ·⟩)
    | _, _, _ => none
  | _ => none

/-- Reads the text that clients are sent. -/
def parse? (text : String) : Option Frame := Json.parse? text >>= ofJson?

end Frame

end TelemetryRelay

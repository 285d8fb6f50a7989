import TelemetryRelay.Json.Printer
import TelemetryRelay.Text.Quoted

/-!
# Documents of a known shape

Reading values out of a document, and what is reported when its shape is wrong. A record may be
given as an object or as an array of its fields in order; unknown fields of an object are ignored,
and the fields that are there are visited in the order of their keys.
-/

namespace TelemetryRelay.Json

/-- Why a document does not have the wanted shape. -/
inductive ShapeFault where
  /-- Another kind of value stands where `wanted` was. -/
  | invalidType (found : Json) (wanted : String)
  /-- An array is too short for a record of `size` fields. -/
  | tooShort (length : Nat) (record : String) (size : Nat)
  /-- An array has more items than the record has fields. -/
  | tooLong (length : Nat)
  | missingField (name : String)

/-- How a value is named in a message. -/
def describe : Json → String
  | .null => "null"
  | .bool true => "boolean \x60true\x60"
  | .bool false => "boolean \x60false\x60"
  | .number (.integer i) => "integer \x60" ++ Decimal.intText i ++ "\x60"
  | .number (.real x) => "floating point \x60" ++ Decimal.documentText x ++ "\x60"
  | .string s => "string " ++ Text.quoted s
  | .array _ => "sequence"
  | .object _ => "map"

/-- The sentence for a shape fault. -/
def ShapeFault.message : ShapeFault → String
  | .invalidType found wanted => "invalid type: " ++ describe found ++ ", expected " ++ wanted
  | .tooShort length record size =>
    "invalid length " ++ Decimal.natText length ++ ", expected struct " ++ record ++ " with " ++
      Decimal.natText size ++ " elements"
  | .tooLong length =>
    "invalid length " ++ Decimal.natText length ++ ", expected fewer elements in array"
  | .missingField name => "missing field \x60" ++ name ++ "\x60"

/-- A text. -/
def asText : Json → Except ShapeFault String
  | .string s => .ok s
  | other => .error (.invalidType other "a string")

/-- A text that may be left out, or be null. -/
def asOptionalText : Json → Except ShapeFault (Option String)
  | .null => .ok none
  | other => (asText other).map some

/-- A value of any kind; null is no value. -/
def asOptional : Json → Option Json
  | .null => none
  | other => some other

/-- The items of an array. -/
def asItems : Json → Except ShapeFault (List Json)
  | .array items => .ok items
  | other => .error (.invalidType other "a sequence")

/-- Reads the record `name` with the fields `order`: `visit` takes them one by one into a draft,
and `finish` completes the draft or names a field that is missing. -/
def readRecord {σ α : Type} (name : String) (order : List String) (blank : σ)
    (visit : σ → String → Json → Except ShapeFault σ) (finish : σ → Except String α) (j : Json) :
    Except ShapeFault α :=
  match j.canonical with
  | .object fields => do
    let draft ← fields.foldlM (fun draft field => visit draft field.1 field.2) blank
    match finish draft with
    | .ok record => return record
    | .error field => throw (.missingField field)
  | .array items => do
    let draft ← (order.zip items).foldlM (fun draft field => visit draft field.1 field.2) blank
    match finish draft with
    | .ok record =>
      if items.length ≤ order.length then return record else throw (.tooLong items.length)
    | .error _ => throw (.tooShort items.length name order.length)
  | other => .error (.invalidType other ("struct " ++ name))

end TelemetryRelay.Json

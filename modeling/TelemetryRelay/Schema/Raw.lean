import TelemetryRelay.Json.Shape
import TelemetryRelay.Schema.Basic

/-!
# Loosely typed schemas

A schema as a dictionary file or another program gives it: every field may be missing, and a bound
may be any document. `RawSchema.toSchema` is the boundary where it becomes a `Schema`.
-/

namespace TelemetryRelay

/-- Why a measurement's declaration was refused. -/
inductive SchemaFault where
  | missingUnits
  | missingFormat
  | unknownFormat (tag : String)
  | boundNotNumeric (bound : Bound) (found : Json)
  | defect (d : SchemaDefect)
  | blankName
  | blankChannel
  | noVariants

/-- The sentence for a schema fault. -/
def SchemaFault.message : SchemaFault → String
  | .missingUnits => "missing required field 'units'"
  | .missingFormat => "missing required field 'format'"
  | .unknownFormat tag => "unknown format '" ++ tag ++ "'"
  | .boundNotNumeric bound found => bound.label ++ " must be numeric, got " ++ found.compact
  | .defect d => d.message
  | .blankName => "measurement name must not be empty"
  | .blankChannel => "channel key must not be empty"
  | .noVariants => "at least one schema variant is required"

/-- A schema before it is checked. -/
structure RawSchema where
  units : Option String := none
  format : Option String := none
  min : Option Json := none
  max : Option Json := none

namespace RawSchema

/-- Takes one field of the document. -/
def visit (raw : RawSchema) (field : String) (value : Json) : Except Json.ShapeFault RawSchema :=
  match field with
  | "units" => return { raw with units := ← value.asOptionalText }
  | "format" => return { raw with format := ← value.asOptionalText }
  | "min" => return { raw with min := value.asOptional }
  | "max" => return { raw with max := value.asOptional }
  | _ => return raw

/-- Reads a loosely typed schema. -/
def ofJson (j : Json) : Except Json.ShapeFault RawSchema :=
  Json.readRecord "RawSchema" ["units", "format", "min", "max"] {} visit .ok j

/-- A bound as a double. Formats that are not numeric carry no meaningful bounds, so there a value
of another kind counts as none. -/
def numericBound (bound : Bound) (format : Format) : Option Json → Except SchemaFault (Option Float)
  | none => .ok none
  | some .null => .ok none
  | some (.number n) => .ok (some n.toFloat)
  | some other => if format.isNumeric then .error (.boundNotNumeric bound other) else .ok none

/-- **The checked schema**, or the first fault: missing fields, an unknown format, a bound that is
no number, and then the defects of the declaration. -/
def toSchema (raw : RawSchema) : Except SchemaFault Schema :=
  match raw.units with
  | none => .error .missingUnits
  | some units =>
    match raw.format with
    | none => .error .missingFormat
    | some tag =>
      match Format.parse? tag with
      | none => .error (.unknownFormat tag)
      | some format =>
        match numericBound .min format raw.min with
        | .error fault => .error fault
        | .ok min =>
          match numericBound .max format raw.max with
          | .error fault => .error fault
          | .ok max =>
            match Schema.make units format min max with
            | .error d => .error (.defect d)
            | .ok schema => .ok schema

end RawSchema

end TelemetryRelay

import TelemetryRelay.Decimal.FloatText
import TelemetryRelay.Json.Basic
import TelemetryRelay.Schema.Format

/-!
# Schemas

The encoding and the range of one telemetry value. `Schema.make` checks what is declared. A range
whose ends coincide or are exchanged is kept as declared and reported by `rangeWarning`, and such a
range never flags a value.
-/

namespace TelemetryRelay

/-- One end of a value range. -/
inductive Bound where
  | min
  | max
deriving DecidableEq, Repr

/-- The name of an end. -/
def Bound.label : Bound → String
  | .min => "min"
  | .max => "max"

/-- Encoding and range of one telemetry value. -/
structure Schema where
  units : String
  format : Format
  min : Option Float
  max : Option Float

/-- Why a schema was refused. -/
inductive SchemaDefect where
  | emptyUnits
  | nonFiniteBound (bound : Bound) (value : Float)
  | missingBounds (format : Format)

/-- The sentence for a defect. -/
def SchemaDefect.message : SchemaDefect → String
  | .emptyUnits => "units must not be empty"
  | .nonFiniteBound bound value =>
    bound.label ++ " must be a finite number, got " ++ Decimal.messageText value
  | .missingBounds format =>
    "format '" ++ format.label ++ "' is numeric and requires both min and max"

/-- A declared range that cannot hold a spread of values. -/
inductive RangeWarning where
  | degenerate (value : Float)
  | inverted (min max : Float)

/-- The sentence for a range warning. -/
def RangeWarning.message : RangeWarning → String
  | .degenerate value => "degenerate range: min and max are both " ++ Decimal.messageText value
  | .inverted min max =>
    "inverted range: min " ++ Decimal.messageText min ++ " is greater than max " ++
      Decimal.messageText max

namespace Schema

/-- The defect of an end that is there but not finite. -/
def boundDefect? (bound : Bound) : Option Float → Option SchemaDefect
  | some value => if Decimal.isFinite value then none else some (.nonFiniteBound bound value)
  | none => none

/-- **Checks a declaration.** Units must not be blank, bounds must be finite, and a numeric format
needs both; the first defect in this order is reported. -/
def make (units : String) (format : Format) (min max : Option Float) :
    Except SchemaDefect Schema :=
  if Text.isBlankText units then .error .emptyUnits
  else
    match boundDefect? .min min, boundDefect? .max max with
    | some defect, _ => .error defect
    | none, some defect => .error defect
    | none, none =>
      if format.isNumeric && (min.isNone || max.isNone) then .error (.missingBounds format)
      else .ok ⟨units, format, min, max⟩

/-- The warning about the declared range, if it is degenerate or inverted. -/
def rangeWarning (s : Schema) : Option RangeWarning :=
  match s.min, s.max with
  | some low, some high =>
    if low == high then some (.degenerate low)
    else if high < low then some (.inverted low high)
    else none
  | _, _ => none

/-- Whether a value lies outside a sound range. -/
def isOutOfRange (s : Schema) (value : Float) : Bool :=
  if s.rangeWarning.isSome then false
  else
    match s.min, s.max with
    | some low, some high => value < low || high < value
    | _, _ => false

/-- The document of a schema; bounds that are not declared are left out. -/
def toJson (s : Schema) : Json :=
  .object ([("units", .string s.units), ("format", .string s.format.tag)] ++
    (s.min.map fun x => ("min", Json.ofFloat x)).toList ++
    (s.max.map fun x => ("max", Json.ofFloat x)).toList)

end Schema

end TelemetryRelay

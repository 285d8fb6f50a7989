import TelemetryRelay.Text.Characters

/-!
# Encodings of telemetry values

The five encodings a measurement may declare, the tags that name them and their labels in
messages.
-/

namespace TelemetryRelay

/-- How a telemetry value is encoded. -/
inductive Format where
  | float
  | integer
  | string
  | enumeration
  | utc
deriving DecidableEq, Repr

namespace Format

/-- The encoding that a tag names. Blanks around the tag and the case of its ASCII letters do not
matter, and an integer may be called `int`. -/
def parse? (tag : String) : Option Format :=
  match Text.lowerAscii (Text.trim tag) with
  | "float" => some .float
  | "integer" => some .integer
  | "int" => some .integer
  | "string" => some .string
  | "enum" => some .enumeration
  | "utc" => some .utc
  | _ => none

/-- The tag that documents use. -/
def tag : Format → String
  | .float => "float"
  | .integer => "integer"
  | .string => "string"
  | .enumeration => "enum"
  | .utc => "utc"

/-- The name that messages use. -/
def label : Format → String
  | .float => "Float"
  | .integer => "Integer"
  | .string => "String"
  | .enumeration => "Enum"
  | .utc => "Utc"

/-- Numeric encodings need a value range. -/
def isNumeric : Format → Bool
  | .float => true
  | .integer => true
  | _ => false

end Format

end TelemetryRelay

import TelemetryRelay.Archive.Memory
import TelemetryRelay.Decimal.Digits

/-!
# Query text

The query that reads the samples of one measurement in a window. The key of the dictionary stands
in double quotes and the measurement in single quotes; a backslash goes before every quote and
backslash inside, so that neither can end its literal.

`QueryText.readLiteral` reads a literal back: a backslash takes the next character as it is, and
the first quote without one ends the literal.
-/

namespace TelemetryRelay.QueryText

/-- Puts a backslash before every quote of the kind and before every backslash. -/
def escape (quote : Char) (cs : List Char) : List Char :=
  cs.flatMap fun c => if c = quote ∨ c = '\\' then ['\\', c] else [c]

/-- A literal in quotes of the kind. -/
def literal (quote : Char) (cs : List Char) : List Char := quote :: escape quote cs ++ [quote]

/-- Reads a literal whose opening quote has been passed; also the text after its closing quote. -/
def readLiteral (quote : Char) : List Char → Option (List Char × List Char)
  | [] => none
  | '\\' :: c :: rest => (readLiteral quote rest).map fun (body, rest) => (c :: body, rest)
  | c :: rest =>
    if c = quote then some ([], rest)
    else (readLiteral quote rest).map fun (body, rest) => (c :: body, rest)

/-- What the query says before the key. -/
def beforeKey : List Char := "SELECT value FROM ".toList

/-- What the query says between the key and the measurement. -/
def beforeMeasurement : List Char := " WHERE \"measurement\" = ".toList

/-- The part of the query that names the window. -/
def windowClause (window : Window) : List Char :=
  " AND time >= ".toList ++ Decimal.ofInt window.start ++ "ms AND time <= ".toList ++
    Decimal.ofInt window.finish ++ "ms ORDER BY time ASC".toList

/-- The characters of the query. -/
def chars (key measurement : String) (window : Window) : List Char :=
  beforeKey ++ literal '"' key.toList ++ beforeMeasurement ++ literal '\'' measurement.toList ++
    windowClause window

/-- **The query for a measurement's samples** in a window. -/
def history (key measurement : String) (window : Window) : String :=
  String.ofList (chars key measurement window)

end TelemetryRelay.QueryText

import TelemetryRelay.Dictionary.Basic
import TelemetryRelay.Log.Level
import TelemetryRelay.Text.Quoted

/-!
# Reports on dictionaries

What is logged about the dictionaries that a server is going to serve: a line for each dictionary,
one for each of its channels, and one for each suspicious range. A dictionary without measurements
gets a warning instead.
-/

namespace TelemetryRelay.Log

/-- A line of the log, without its time. -/
structure Line where
  level : Level
  message : String
  /-- The names of the fields and the texts of their values. -/
  fields : List (String × String) := []
deriving DecidableEq, Repr

/-- The target of every line. -/
def target : String := "rocket_telemetry"

/-- The text of a line. -/
def Line.text (l : Line) : String :=
  l.level.label ++ " " ++ target ++ ": " ++
    " ".intercalate (l.message :: l.fields.map fun (name, value) => name ++ "=" ++ value)

/-- The warning about a dictionary without measurements. -/
def emptyLine (d : Dictionary) : Line :=
  ⟨.warn, "Dictionary declares no measurements", [("dictionary", Text.quoted d.key)]⟩

/-- The line about a dictionary. -/
def loadedLine (d : Dictionary) : Line :=
  ⟨.info, "Loaded dictionary",
    [("dictionary", Text.quoted d.key), ("name", Text.quoted d.title),
      ("count", Decimal.natText d.size), ("measurements", Text.quotedList d.names)]⟩

/-- The line about a channel, which shows its first variant. -/
def channelLine (d : Dictionary) (m : Measurement) (primary : Schema) : Line :=
  ⟨.debug, "Registered channel",
    [("dictionary", Text.quoted d.key), ("measurement", m.name), ("channel", m.channel),
      ("units", Text.quoted primary.units), ("format", primary.format.label)]⟩

/-- The line about a suspicious range. -/
def warningLine (d : Dictionary) (w : VariantWarning) : Line :=
  ⟨.warn, w.warning.message,
    [("dictionary", Text.quoted d.key), ("measurement", w.measurement),
      ("variant", Decimal.natText w.variant)]⟩

/-- The lines about a dictionary. -/
def dictionaryLines (d : Dictionary) : List Line :=
  if d.measurements.isEmpty then [emptyLine d]
  else
    loadedLine d :: (d.measurements.filterMap fun m => m.primary?.map (channelLine d m)) ++
      d.warnings.map (warningLine d)

/-- **The report** on some dictionaries. -/
def report (dictionaries : List Dictionary) : List Line := dictionaries.flatMap dictionaryLines

/-- The texts of the lines that a filter lets through. -/
def shown (filter : Filter) (lines : List Line) : List String :=
  (lines.filter fun l => filter.allows target l.level).map Line.text

end TelemetryRelay.Log

import TelemetryRelay.Dictionary.Definition

/-!
# Documents of dictionaries

The documents that are served for measurements and dictionaries, in which the channel of a
measurement is its `key`, and the documents that declare them, in which it is its `channel`.
-/

namespace TelemetryRelay

/-- The document of a list of variants. -/
def Schema.listJson (variants : List Schema) : Json := .array (variants.map Schema.toJson)

/-- The document of a measurement. -/
def Measurement.toJson (m : Measurement) : Json :=
  .object [("name", .string m.name), ("key", .string m.channel),
    ("values", Schema.listJson m.variants)]

/-- The document of a dictionary. -/
def Dictionary.toJson (d : Dictionary) : Json :=
  .object [("name", .string d.title), ("key", .string d.key),
    ("measurements", .array (d.measurements.map Measurement.toJson))]

/-- The short document of a dictionary: its title and its key. -/
def Dictionary.summaryJson (d : Dictionary) : Json :=
  .object [("name", .string d.title), ("key", .string d.key)]

/-! ### Reading documents -/

/-- Takes one field of the document. -/
def MeasurementDraft.visit (draft : MeasurementDraft) (field : String) (value : Json) :
    Except Json.ShapeFault MeasurementDraft :=
  match field with
  | "name" => return { draft with name := some (← value.asText) }
  | "channel" => return { draft with channel := some (← value.asText) }
  | "values" => return { draft with values := ← (← value.asItems).mapM RawSchema.ofJson }
  | _ => return draft

/-- Reads a declared measurement. -/
def MeasurementDefinition.ofJson (j : Json) : Except Json.ShapeFault MeasurementDefinition :=
  Json.readRecord "MeasurementDefinition" ["name", "channel", "values"] {}
    MeasurementDraft.visit MeasurementDraft.finish j

/-- Takes one field of the document. -/
def DictionaryDraft.visit (draft : DictionaryDraft) (field : String) (value : Json) :
    Except Json.ShapeFault DictionaryDraft :=
  match field with
  | "name" => return { draft with name := some (← value.asText) }
  | "key" => return { draft with key := some (← value.asText) }
  | "measurements" =>
    return { draft with measurements := ← (← value.asItems).mapM MeasurementDefinition.ofJson }
  | _ => return draft

/-- Reads a declared dictionary. -/
def DictionaryDefinition.ofJson (j : Json) : Except Json.ShapeFault DictionaryDefinition :=
  Json.readRecord "DictionaryDefinition" ["name", "key", "measurements"] {}
    DictionaryDraft.visit DictionaryDraft.finish j

end TelemetryRelay

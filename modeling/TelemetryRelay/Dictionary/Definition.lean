import TelemetryRelay.Dictionary.Basic

/-!
# Definitions of dictionaries

A dictionary as a file declares it. `DictionaryDefinition.build` registers the declared
measurements one after the other and stops at the first that is refused.
-/

namespace TelemetryRelay

/-- A measurement as declared. -/
structure MeasurementDefinition where
  name : String
  channel : String
  values : List RawSchema

/-- A dictionary as declared. -/
structure DictionaryDefinition where
  title : String
  key : String
  measurements : List MeasurementDefinition

/-- The fields of a declared measurement that have been read so far. -/
structure MeasurementDraft where
  name : Option String := none
  channel : Option String := none
  values : List RawSchema := []

/-- The fields of a declared dictionary that have been read so far. -/
structure DictionaryDraft where
  name : Option String := none
  key : Option String := none
  measurements : List MeasurementDefinition := []

namespace MeasurementDraft

/-- The definition, or the first field that is missing. -/
def finish (draft : MeasurementDraft) : Except String MeasurementDefinition :=
  match draft.name, draft.channel with
  | none, _ => .error "name"
  | _, none => .error "channel"
  | some name, some channel => .ok ⟨name, channel, draft.values⟩

end MeasurementDraft

namespace DictionaryDraft

/-- The definition, or the first field that is missing. -/
def finish (draft : DictionaryDraft) : Except String DictionaryDefinition :=
  match draft.name, draft.key with
  | none, _ => .error "name"
  | _, none => .error "key"
  | some title, some key => .ok ⟨title, key, draft.measurements⟩

end DictionaryDraft

namespace DictionaryDefinition

/-- Registers declared measurements one after the other. -/
def register (d : Dictionary) : List MeasurementDefinition → Except DictionaryError Dictionary
  | [] => .ok d
  | m :: rest =>
    match d.addRaw m.name m.channel m.values with
    | .error e => .error e
    | .ok longer => register longer rest

/-- **The declared dictionary**, or the error of the first measurement that is refused. -/
def build (definition : DictionaryDefinition) : Except DictionaryError Dictionary :=
  register (.empty definition.title definition.key) definition.measurements

end DictionaryDefinition

end TelemetryRelay

import TelemetryRelay.Archive.Memory
import TelemetryRelay.Json.Reader

/-!
# Answers to queries

The document that the archive answers a query with: results, each with an error or with series of
rows. Only the first result is looked at. In a series the columns named `time` and `value` are
found by name; where there is none of a name, the first column counts as the time and the second as
the value. A row without a whole time and a numeric value is passed over.
-/

namespace TelemetryRelay

/-- A series of rows under named columns. -/
structure ResponseSeries where
  columns : List String
  rows : List (List Json)

/-- One result of a query. -/
structure QueryResult where
  series : List ResponseSeries := []
  error : Option String := none

/-- The answer to a query. -/
structure QueryResponse where
  results : List QueryResult

/-- A time of 64 signed bits. -/
def Json.asTime? : Json → Option Int
  | .number (.integer i) => if i ≤ Decimal.int64Max then some i else none
  | _ => none

/-- A number. -/
def Json.asNumber? : Json → Option Float
  | .number n => some n.toFloat
  | _ => none

/-- The place of the first column of a name, or else a fixed place. -/
def columnIndex (name : String) (fallback : Nat) (columns : List String) : Nat :=
  (columns.findIdx? (· == name)).getD fallback

/-- The sample of a row whose time and value stand at the given places. -/
def samplePoint? (timeAt valueAt : Nat) (row : List Json) : Option Point := do
  let time ← row[timeAt]? >>= Json.asTime?
  let value ← row[valueAt]? >>= Json.asNumber?
  return ⟨time, value⟩

/-- The samples of a series. -/
def ResponseSeries.points (s : ResponseSeries) : List Point :=
  s.rows.filterMap
    (samplePoint? (columnIndex "time" 0 s.columns) (columnIndex "value" 1 s.columns))

/-- The samples of a result. -/
def QueryResult.points (r : QueryResult) : List Point := r.series.flatMap ResponseSeries.points

namespace QueryResponse

/-- The error of the first result. -/
def error? (r : QueryResponse) : Option String := r.results.head? >>= (·.error)

/-- The samples of the first result. -/
def points (r : QueryResponse) : List Point := ((r.results.head?).map QueryResult.points).getD []

end QueryResponse

/-! ### Reading answers -/

/-- A series of which some fields have been read. -/
structure SeriesDraft where
  columns : Option (List String) := none
  rows : Option (List (List Json)) := none

/-- The fields of a series. -/
def SeriesDraft.fields : List (Json.Reader.Field SeriesDraft) :=
  [.once "columns" (·.columns) ({ · with columns := some · }) (.list .text),
    .once "values" (·.rows) ({ · with rows := some · }) (.list (.list .any))]

/-- The series, if all its fields are there. -/
def SeriesDraft.finish (draft : SeriesDraft) : Option ResponseSeries :=
  return ⟨← draft.columns, ← draft.rows⟩

/-- Reads a series. -/
def ResponseSeries.reader : Json.Reader ResponseSeries :=
  Json.Reader.filterMap (.record SeriesDraft.fields {}) SeriesDraft.finish

/-- A result of which some fields have been read; null is a value, too. -/
structure ResultDraft where
  series : Option (Option (List ResponseSeries)) := none
  error : Option (Option String) := none

/-- The fields of a result. -/
def ResultDraft.fields : List (Json.Reader.Field ResultDraft) :=
  [.once "series" (·.series) ({ · with series := some · }) (.optional (.list ResponseSeries.reader)),
    .once "error" (·.error) ({ · with error := some · }) (.optional .text)]

/-- The result; both of its fields may be missing. -/
def ResultDraft.finish (draft : ResultDraft) : QueryResult :=
  ⟨draft.series.join.getD [], draft.error.join⟩

/-- Reads a result. -/
def QueryResult.reader : Json.Reader QueryResult :=
  Json.Reader.filterMap (.record ResultDraft.fields {}) fun draft => some draft.finish

/-- An answer of which some fields have been read. -/
structure ResponseDraft where
  results : Option (List QueryResult) := none

/-- The fields of an answer. -/
def ResponseDraft.fields : List (Json.Reader.Field ResponseDraft) :=
  [.once "results" (·.results) ({ · with results := some · }) (.list QueryResult.reader)]

/-- The answer, if its results are there. -/
def ResponseDraft.finish (draft : ResponseDraft) : Option QueryResponse := draft.results.map (⟨·⟩)

namespace QueryResponse

/-- Reads the answer to a query. -/
def reader : Json.Reader QueryResponse :=
  Json.Reader.filterMap (.record ResponseDraft.fields {}) ResponseDraft.finish

/-- Reads the text of an answer. -/
def parse? (body : String) : Option QueryResponse := reader.parse? body

end QueryResponse

end TelemetryRelay

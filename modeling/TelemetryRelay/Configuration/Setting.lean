import TelemetryRelay.Configuration.Scalar
import TelemetryRelay.Json.Basic

/-!
# Settings as a tree

What a configuration file says, whatever its format: scalars, lists and tables. A reader asks for
the shape it needs and gets nothing if the setting does not have it; why is not reported.

* `Setting.text?` takes any scalar for a text.
* `Setting.readRecord?` reads a record from a table, or from a list of its fields in order.
* `Setting.toJson` keeps a setting as a document.
-/

namespace TelemetryRelay

/-- A setting; `absent` is a value that was given as null. -/
inductive Setting where
  | absent
  | scalar (s : Scalar)
  | list (items : List Setting)
  | table (entries : List (String × Setting))

namespace Setting

/-- The last setting of a name. -/
def lookup? (name : String) (entries : List (String × Setting)) : Option Setting :=
  (entries.reverse.find? (·.1 == name)).map (·.2)

/-- A text; scalars of other kinds are written out. -/
def text? : Setting → Option String
  | .scalar s => some s.toText
  | _ => none

/-- A text that may be left out. -/
def optionalText? : Setting → Option (Option String)
  | .absent => some none
  | other => other.text?.map some

/-- The items of a list. -/
def items? : Setting → Option (List Setting)
  | .list items => some items
  | _ => none

/-- A number as a document. Documents have no infinite values and no value that is no number. -/
def numberJson (x : Float) : Json := if Decimal.isFinite x then .ofFloat x else .null

mutual

/-- The setting as a document. -/
def toJson : Setting → Json
  | .absent => .null
  | .scalar (.bool b) => .bool b
  | .scalar (.integer i) => .ofInt i
  | .scalar (.real x) => numberJson x
  | .scalar (.text s) => .string s
  | .list items => .array (itemsJson items)
  | .table entries => .object (entriesJson entries)

/-- The settings of a list as documents. -/
def itemsJson : List Setting → List Json
  | [] => []
  | item :: rest => item.toJson :: itemsJson rest

/-- The settings of a table as documents. -/
def entriesJson : List (String × Setting) → List (String × Json)
  | [] => []
  | (name, entry) :: rest => (name, entry.toJson) :: entriesJson rest

end

/-- A number of a document as a setting: whole if it fits into 64 bits with a sign. -/
def ofNumber : Json.Number → Setting
  | .integer i =>
    if Decimal.int64Min ≤ i ∧ i ≤ Decimal.int64Max then .scalar (.integer i)
    else .scalar (.real (Float.ofInt i))
  | .real x => .scalar (.real x)

mutual

/-- A document as a setting. -/
def ofJson : Json → Setting
  | .null => .absent
  | .bool b => .scalar (.bool b)
  | .number n => ofNumber n
  | .string s => .scalar (.text s)
  | .array items => .list (ofItems items)
  | .object fields => .table (ofFields fields)

/-- The items of an array as settings. -/
def ofItems : List Json → List Setting
  | [] => []
  | item :: rest => ofJson item :: ofItems rest

/-- The fields of an object as settings. -/
def ofFields : List (String × Json) → List (String × Setting)
  | [] => []
  | (name, value) :: rest => (name, ofJson value) :: ofFields rest

end

/-- Reads a record with the fields `order`: `visit` takes them one by one into a draft, and
`finish` completes it. Of a table only these fields count; of a list the first items are the
fields, and further items are ignored. -/
def readRecord? {σ α : Type} (order : List String) (blank : σ)
    (visit : σ → String → Setting → Option σ) (finish : σ → Option α) (s : Setting) : Option α :=
  match s with
  | .table entries =>
    (order.filterMap fun name => (lookup? name entries).map (name, ·)).foldlM
      (fun draft field => visit draft field.1 field.2) blank >>= finish
  | .list items =>
    (order.zip items).foldlM (fun draft field => visit draft field.1 field.2) blank >>= finish
  | _ => none

end Setting

end TelemetryRelay

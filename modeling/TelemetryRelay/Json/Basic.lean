/-!
# JSON documents

A document as a tree. Fields keep the order and the repetitions of the text they were read from;
`Json.canonical` sorts them by key, with the last of several equal keys.
-/

namespace TelemetryRelay

/-- A number of a document: whole if it was written as a whole number of 64 bits, else a double. -/
inductive Json.Number where
  | integer (i : Int)
  | real (x : Float)

/-- A document. -/
inductive Json where
  | null
  | bool (b : Bool)
  | number (n : Json.Number)
  | string (s : String)
  | array (items : List Json)
  | object (fields : List (String × Json))
deriving Inhabited

namespace Json

/-- The double nearest to the number. -/
def Number.toFloat : Number → Float
  | .integer i => Float.ofInt i
  | .real x => x

/-- A whole number as a document. -/
def ofInt (i : Int) : Json := .number (.integer i)

/-- A natural number as a document. -/
def ofNat (n : Nat) : Json := .number (.integer n)

/-- A double as a document. -/
def ofFloat (x : Float) : Json := .number (.real x)

/-- The last value of a field. -/
def lookup? (key : String) (fields : List (String × Json)) : Option Json :=
  (fields.reverse.find? (·.1 == key)).map (·.2)

/-- The values of a field, in order. -/
def valuesOf (key : String) (fields : List (String × Json)) : List Json :=
  (fields.filter (·.1 == key)).map (·.2)

/-- Puts a field into fields sorted by key; an equal key gets the new value. -/
def insertField (key : String) (value : Json) : List (String × Json) → List (String × Json)
  | [] => [(key, value)]
  | (k, v) :: rest =>
    if key = k then (key, value) :: rest
    else if key < k then (key, value) :: (k, v) :: rest
    else (k, v) :: insertField key value rest

mutual

/-- The document with the fields of every object sorted by key, the last of equal keys kept. -/
def canonical : Json → Json
  | .array items => .array (canonicalItems items)
  | .object fields => .object (canonicalFields fields [])
  | other => other

/-- Sorts inside every item. -/
def canonicalItems : List Json → List Json
  | [] => []
  | item :: rest => canonical item :: canonicalItems rest

/-- Puts fields one after the other into sorted ones. -/
def canonicalFields : List (String × Json) → List (String × Json) → List (String × Json)
  | [], sorted => sorted
  | (key, value) :: rest, sorted => canonicalFields rest (insertField key (canonical value) sorted)

end

end Json

end TelemetryRelay

import TelemetryRelay.Json.Parser

/-!
# Reading values of a known shape from a text

Readers that take a value of a wanted shape straight from a text, without a document in between.
What no one asks for is skipped: a field of another name is scanned to its end, however deep it is
nested, and neither its numerals nor its surrogates are looked at.
-/

namespace TelemetryRelay.Json

/-! ### Skipping -/

/-- The rest behind a string whose opening quote has been passed. Escapes are recognized, and
surrogates need not be paired. -/
def skipString : List Char → Option (List Char)
  | '"' :: rest => some rest
  | '\\' :: 'u' :: a :: b :: c :: d :: rest =>
    if (readUnit [a, b, c, d]).isSome then skipString rest else none
  | '\\' :: c :: rest => if (shortEscape? c).isSome then skipString rest else none
  | c :: rest => if c = '\\' ∨ c.toNat < 0x20 then none else skipString rest
  | [] => none

mutual

/-- The rest behind a value. -/
def skipValue : (fuel : Nat) → List Char → Option (List Char)
  | 0, _ => none
  | fuel + 1, cs =>
    match skipSpace cs with
    | 'n' :: rest => expect? ['u', 'l', 'l'] rest
    | 't' :: rest => expect? ['r', 'u', 'e'] rest
    | 'f' :: rest => expect? ['a', 'l', 's', 'e'] rest
    | '"' :: rest => skipString rest
    | '[' :: rest =>
      match skipSpace rest with
      | ']' :: rest => some rest
      | rest => skipItems fuel rest
    | '{' :: rest =>
      match skipSpace rest with
      | '}' :: rest => some rest
      | rest => skipFields fuel rest
    | cs => (scanLiteral cs).map (·.2)

/-- The rest behind the items of an array and its closing bracket. -/
def skipItems : (fuel : Nat) → List Char → Option (List Char)
  | 0, _ => none
  | fuel + 1, cs => do
    let rest ← skipValue fuel cs
    match skipSpace rest with
    | ']' :: rest => return rest
    | ',' :: rest => skipItems fuel rest
    | _ => none

/-- The rest behind the fields of an object and its closing brace. -/
def skipFields : (fuel : Nat) → List Char → Option (List Char)
  | 0, _ => none
  | fuel + 1, cs =>
    match skipSpace cs with
    | '"' :: rest => do
      let rest ← skipString rest
      match skipSpace rest with
      | ':' :: rest =>
        let rest ← skipValue fuel rest
        match skipSpace rest with
        | '}' :: rest => return rest
        | ',' :: rest => skipFields fuel rest
        | _ => none
      | _ => none
    | _ => none

end

/-! ### Readers -/

/-- A reader takes a value from the start of a text. Containers may be nested `depth` deep. -/
def Reader (α : Type) : Type := (depth : Nat) → List Char → Option (α × List Char)

namespace Reader

variable {α β σ : Type}

/-- A value of any kind. -/
def any : Reader Json := fun depth cs => readValue (2 * cs.length + 2) depth cs

/-- A text. -/
def text : Reader String := fun _ cs =>
  match skipSpace cs with
  | '"' :: rest => readString rest
  | _ => none

/-- A value, or null. -/
def optional (read : Reader α) : Reader (Option α) := fun depth cs =>
  match skipSpace cs with
  | 'n' :: rest => (expect? ['u', 'l', 'l'] rest).map (none, ·)
  | cs => (read depth cs).map fun (a, rest) => (some a, rest)

/-- What a value is turned into, if it can be. -/
def filterMap (read : Reader α) (f : α → Option β) : Reader β := fun depth cs => do
  let (a, rest) ← read depth cs
  return (← f a, rest)

/-- Items up to the closing bracket of their array. -/
def items (read : Reader α) (depth : Nat) : (fuel : Nat) → List Char → Option (List α × List Char)
  | 0, _ => none
  | fuel + 1, cs => do
    let (item, rest) ← read depth cs
    match skipSpace rest with
    | ']' :: rest => return ([item], rest)
    | ',' :: rest =>
      let (more, rest) ← items read depth fuel rest
      return (item :: more, rest)
    | _ => none

/-- An array of values. -/
def list (read : Reader α) : Reader (List α) := fun depth cs =>
  match depth, skipSpace cs with
  | depth + 1, '[' :: rest =>
    match skipSpace rest with
    | ']' :: rest => some ([], rest)
    | rest => items read depth rest.length rest
  | _, _ => none

/-- A field of a record: its name, and what it makes of the draft of the record. -/
structure Field (σ : Type) where
  name : String
  read : σ → Reader σ

/-- A field that must not be repeated. -/
def Field.once (name : String) (get : σ → Option α) (set : σ → α → σ) (read : Reader α) :
    Field σ where
  name := name
  read draft := fun depth cs =>
    if (get draft).isSome then none else (read depth cs).map fun (a, rest) => (set draft a, rest)

/-- What the value of a field makes of a draft; the value of a field of another name is skipped. -/
def fieldValue (fields : List (Field σ)) (key : String) (draft : σ) : Reader σ := fun depth cs =>
  match fields.find? (·.name == key) with
  | some field => field.read draft depth cs
  | none => (skipValue (2 * cs.length + 2) cs).map (draft, ·)

/-- The fields of a record up to its closing brace. -/
def namedFields (fields : List (Field σ)) (depth : Nat) :
    (fuel : Nat) → σ → List Char → Option (σ × List Char)
  | 0, _, _ => none
  | fuel + 1, draft, cs =>
    match skipSpace cs with
    | '"' :: rest => do
      let (key, rest) ← readString rest
      match skipSpace rest with
      | ':' :: rest =>
        let (draft, rest) ← fieldValue fields key draft depth rest
        match skipSpace rest with
        | '}' :: rest => return (draft, rest)
        | ',' :: rest => namedFields fields depth fuel draft rest
        | _ => none
      | _ => none
    | _ => none

/-- The fields of a record in their order, up to a closing bracket. -/
def orderedFields (depth : Nat) : List (Field σ) → σ → List Char → Option (σ × List Char)
  | [], _, _ => none
  | field :: more, draft, cs => do
    let (draft, rest) ← field.read draft depth cs
    match skipSpace rest with
    | ']' :: rest => return (draft, rest)
    | ',' :: rest => orderedFields depth more draft rest
    | _ => none

/-- A record, as an object or as an array of its fields in order: what its fields make of a blank
draft. -/
def record (fields : List (Field σ)) (blank : σ) : Reader σ := fun depth cs =>
  match depth, skipSpace cs with
  | depth + 1, '{' :: rest =>
    match skipSpace rest with
    | '}' :: rest => some (blank, rest)
    | rest => namedFields fields depth rest.length blank rest
  | depth + 1, '[' :: rest =>
    match skipSpace rest with
    | ']' :: rest => some (blank, rest)
    | rest => orderedFields depth fields blank rest
  | _, _ => none

/-- The value of a text that is one value, blanks around it apart. -/
def parse? (read : Reader α) (text : String) : Option α :=
  match read nestingLimit text.toList with
  | some (value, rest) => if rest.all isSpace then some value else none
  | none => none

end Reader

end TelemetryRelay.Json

import TelemetryRelay.Toml.Literal
import TelemetryRelay.Toml.Table
import TelemetryRelay.Toml.Text

/-!
# Reading TOML

Values, statements and whole texts. `parse?` reads a text into the entries of its root table; a
text that breaks the grammar or the rules of tables is refused as a whole.
-/

namespace TelemetryRelay.Toml

/-- How deep lists and tables may be nested inside a value. -/
def nestingLimit : Nat := 80

/-- Splits the last key off a path. -/
def splitLast : List String → Option (List String × String)
  | [] => none
  | [key] => some ([], key)
  | key :: rest => (splitLast rest).map fun (path, last) => (key :: path, last)

/-- Reads the path before an equals sign, split into its last key and those before. -/
def readTarget (cs : List Char) : Option ((List String × String) × List Char) := do
  let (path, rest) ← readPath cs.length cs
  let target ← splitLast path
  return (target, skipBlanks (← pass? '=' (skipBlanks rest)))

mutual

/-- Reads a value whose lists and tables are nested at most `depth` deep. -/
def readValue : (fuel depth : Nat) → List Char → Option (Setting × List Char)
  | 0, _, _ => none
  | fuel + 1, depth, cs =>
    match cs with
    | [] => none
    | '[' :: rest =>
      match depth with
      | 0 => none
      | depth + 1 => (readItems fuel depth rest).map fun (items, rest) => (.list items, rest)
    | '{' :: rest =>
      match depth with
      | 0 => none
      | depth + 1 =>
        match skipBlanks rest with
        | '}' :: rest => some (.table [], rest)
        | rest =>
          (readPairs fuel depth [] rest).map fun (entries, rest) =>
            (.table (Entries.settings entries), rest)
    | c :: _ =>
      if (quoteKind? c).isSome then
        (readString cs).map fun (s, rest) => (.scalar (.text s), rest)
      else readLiteral cs

/-- Reads the items of a list up to its closing bracket. -/
def readItems : (fuel depth : Nat) → List Char → Option (List Setting × List Char)
  | 0, _, _ => none
  | fuel + 1, depth, cs =>
    match skipGap cs with
    | ']' :: rest => some ([], rest)
    | cs => do
      let (item, rest) ← readValue fuel depth cs
      match skipGap rest with
      | ']' :: rest => return ([item], rest)
      | ',' :: rest =>
        let (items, rest) ← readItems fuel depth rest
        return (item :: items, rest)
      | _ => none

/-- Reads the pairs of a table on one line up to its closing brace. -/
def readPairs : (fuel depth : Nat) → Entries → List Char → Option (Entries × List Char)
  | 0, _, _, _ => none
  | fuel + 1, depth, entries, cs => do
    let ((path, key), rest) ← readTarget cs
    let (value, rest) ← readValue fuel depth rest
    let entries ← entries.addPair path key value .header
    match skipBlanks rest with
    | '}' :: rest => return (entries, rest)
    | ',' :: rest => readPairs fuel depth entries rest
    | _ => none

end

/-- A line of a text that says something. -/
inductive Statement where
  | pair (path : List String) (key : String) (value : Setting)
  | table (path : List String) (key : String)
  | item (path : List String) (key : String)

/-- Reads one statement. -/
def readStatement (cs : List Char) : Option (Statement × List Char) :=
  match cs with
  | '[' :: '[' :: rest => do
    let (path, rest) ← readPath rest.length rest
    let (path, key) ← splitLast path
    return (.item path key, ← pass? ']' (← pass? ']' (skipBlanks rest)))
  | '[' :: rest => do
    let (path, rest) ← readPath rest.length rest
    let (path, key) ← splitLast path
    return (.table path key, ← pass? ']' (skipBlanks rest))
  | _ => do
    let ((path, key), rest) ← readTarget cs
    let (value, rest) ← readValue (2 * rest.length + 2) nestingLimit rest
    return (.pair path key value, rest)

/-- The root table so far, and the path of the table that the last header opened. -/
structure Draft where
  root : Entries := []
  header : List String := []

/-- Carries out a statement. -/
def Draft.apply (d : Draft) : Statement → Option Draft
  | .pair path key value =>
    (d.root.addBelow d.header path key value).map fun root => { d with root }
  | .table path key => (d.root.openTable path key).map fun root => ⟨root, path ++ [key]⟩
  | .item path key => (d.root.openItem path key).map fun root => ⟨root, path ++ [key]⟩

/-- Reads statements, each on lines of its own, up to the end of the text. -/
def readStatements : Nat → Draft → List Char → Option Draft
  | 0, _, _ => none
  | lines + 1, d, cs =>
    match skipGap cs with
    | [] => some d
    | cs => do
      let (statement, rest) ← readStatement cs
      readStatements lines (← d.apply statement) (← lineEnd? rest)

/-- **Reads a text** into the settings of its root table. -/
def parse? (text : String) : Option (List (String × Setting)) :=
  let cs := text.toList
  (readStatements (cs.length + 1) {} cs).map fun d => Entries.settings d.root

end TelemetryRelay.Toml

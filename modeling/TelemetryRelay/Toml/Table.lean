import TelemetryRelay.Configuration.Setting

/-!
# Tables under construction

A TOML text builds its tables statement by statement, and how a table was opened decides what may
still be added to it. A key is defined once; a table is opened by at most one header; dotted keys
add only to tables that dotted keys opened. A statement that breaks these rules is refused.

* `Entries.addPair`, `Entries.openTable` and `Entries.openItem` carry out the three statements.
* `Entries.settings` is the finished table.
-/

namespace TelemetryRelay.Toml

/-- How a table came to be. -/
inductive Opening where
  /-- By a header of its own. -/
  | header
  /-- As the parent of a table with a header. -/
  | implied
  /-- By a dotted key. -/
  | dotted
deriving DecidableEq, Repr

/-- What a key stands for. -/
inductive Node where
  | value (s : Setting)
  | table (opening : Opening) (entries : List (String × Node))
  /-- A list of tables, the last of which is still open. -/
  | series (earlier : List (List (String × Node))) (last : List (String × Node))

/-- The entries of a table in order. -/
abbrev Entries := List (String × Node)

namespace Entries

/-- What a key stands for. -/
def get? (entries : Entries) (key : String) : Option Node :=
  (entries.find? (·.1 == key)).map (·.2)

/-- Lets a key that is there stand for something else. -/
def replace (entries : Entries) (key : String) (node : Node) : Entries :=
  entries.map fun entry => if entry.1 == key then (key, node) else entry

/-- Changes the table at the end of a path. Tables on the way are opened if they are missing, by
dotted keys or as parents; of a list of tables the last is meant. -/
def change (dotted : Bool) (step : Opening → Entries → Option Entries) (opening : Opening)
    (entries : Entries) : List String → Option Entries
  | [] => step opening entries
  | key :: path =>
    match entries.get? key with
    | none =>
      let opening := if dotted then .dotted else .implied
      (change dotted step opening [] path).map fun inner =>
        entries ++ [(key, .table opening inner)]
    | some (.value _) => none
    | some (.series earlier last) =>
      (change dotted step .header last path).map fun inner =>
        entries.replace key (.series earlier inner)
    | some (.table opening inner) =>
      if dotted && opening == .header then none
      else
        (change dotted step opening inner path).map fun inner =>
          entries.replace key (.table opening inner)

/-- Adds a key with its value to a table that was opened in the wanted way. -/
def define (dotted : Bool) (key : String) (s : Setting) (opening : Opening) (entries : Entries) :
    Option Entries :=
  if dotted == (opening == .dotted) && (entries.get? key).isNone then
    some (entries ++ [(key, .value s)])
  else none

/-- Carries out `path.key = value` in a table. -/
def addPair (path : List String) (key : String) (s : Setting) (opening : Opening)
    (entries : Entries) : Option Entries :=
  change true (define (!path.isEmpty) key s) opening entries path

/-- Opens a table by its header. -/
def openHeader (key : String) (_ : Opening) (entries : Entries) : Option Entries :=
  match entries.get? key with
  | none => some (entries ++ [(key, .table .header [])])
  | some (.table .implied inner) => some (entries.replace key (.table .header inner))
  | _ => none

/-- Opens the next table of a list. -/
def openNext (key : String) (_ : Opening) (entries : Entries) : Option Entries :=
  match entries.get? key with
  | none => some (entries ++ [(key, .series [] [])])
  | some (.series earlier last) => some (entries.replace key (.series (earlier ++ [last]) []))
  | _ => none

/-- Carries out `[path.key]`. -/
def openTable (path : List String) (key : String) (entries : Entries) : Option Entries :=
  change false (openHeader key) .header entries path

/-- Carries out `[[path.key]]`. -/
def openItem (path : List String) (key : String) (entries : Entries) : Option Entries :=
  change false (openNext key) .header entries path

/-- Carries out `path.key = value` below the header of a table. -/
def addBelow (header path : List String) (key : String) (s : Setting) (entries : Entries) :
    Option Entries :=
  change false (addPair path key s) .header entries header

mutual

/-- What a key stands for in the end. -/
def finish : Node → Setting
  | .value s => s
  | .table _ entries => .table (settings entries)
  | .series earlier last => .list (tables earlier ++ [.table (settings last)])

/-- The finished entries. -/
def settings : List (String × Node) → List (String × Setting)
  | [] => []
  | (key, node) :: rest => (key, finish node) :: settings rest

/-- The finished tables of a list. -/
def tables : List (List (String × Node)) → List Setting
  | [] => []
  | entries :: rest => .table (settings entries) :: tables rest

end

end Entries

end TelemetryRelay.Toml

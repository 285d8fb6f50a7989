import TelemetryRelay.Configuration.Basic
import TelemetryRelay.Configuration.Setting
import TelemetryRelay.Dictionary.Definition
import TelemetryRelay.Json.Parser
import TelemetryRelay.Toml.Parser

/-!
# Dictionary files

Finding a dictionary file, reading it by the format that its extension names, and building the
dictionaries it declares. Everything that goes wrong before a declaration can be judged is
`ConfigError.unreadable`; a declaration that is refused keeps its own error.

How a text of each format is read, and which format is looked for first, is up to a `FileLibrary`.
`FileLibrary.standard` reads TOML and JSON.
-/

namespace TelemetryRelay

/-- The formats of dictionary files. -/
inductive FileFormat where
  | toml
  | json
  | yaml
  | ini
  | ron
  | json5
deriving DecidableEq, Repr

namespace FileFormat

/-- The extensions of a format. -/
def extensions : FileFormat → List String
  | .toml => ["toml"]
  | .json => ["json"]
  | .yaml => ["yaml", "yml"]
  | .ini => ["ini"]
  | .ron => ["ron"]
  | .json5 => ["json5"]

/-- All formats. -/
def all : List FileFormat := [.toml, .json, .yaml, .ini, .ron, .json5]

/-- The format of an extension. -/
def ofExtension? (extension : String) : Option FileFormat :=
  all.find? (·.extensions.contains extension)

end FileFormat

/-- What reads the files. -/
structure FileLibrary where
  /-- The formats in the order in which a path without extension is completed. -/
  order : List FileFormat
  /-- Reads a text into the settings of its root table. -/
  read? : FileFormat → String → Option (List (String × Setting))

namespace FileLibrary

/-- Reads a JSON text whose root is an object. -/
def readJson? (text : String) : Option (List (String × Setting)) :=
  match (Json.parse? text).map Setting.ofJson with
  | some (.table entries) => some entries
  | _ => none

/-- The library of the program. Of the other formats it knows the extensions only. -/
def standard : FileLibrary where
  order := FileFormat.all
  read?
    | .toml => Toml.parse?
    | .json => readJson?
    | _ => fun _ => none

end FileLibrary

namespace DictionaryFile

/-- The text without the mark of its encoding at the start. -/
def withoutMark (text : String) : String :=
  match text.toList with
  | '\ufeff' :: rest => String.ofList rest
  | _ => text

/-- The extension of a file's name: what follows the last dot, if that is not the first
character. -/
def extension? (name : String) : Option String :=
  match name.toList.reverse.dropWhile (· != '.') with
  | _dot :: _ :: _ => some (String.ofList (name.toList.reverse.takeWhile (· != '.')).reverse)
  | _ => none

/-- The names of a path without those that lead nowhere at its end. -/
def trimmedNames (path : String) : List String :=
  (((path.toList.splitOn '/').map String.ofList).reverse.dropWhile fun name =>
    name == "" || name == ".").reverse

/-- The name of the file at a path. -/
def fileName? (path : String) : Option String := (trimmedNames path).getLast?

/-- What a path is completed from; a path to a directory above is not completed. -/
def stem? (path : String) : Option String :=
  match fileName? path with
  | none => none
  | some ".." => none
  | some _ => some ("/".intercalate (trimmedNames path))

/-- Every path at which the file may lie. -/
def candidates (path : String) : List String :=
  path :: (stem? path).toList.flatMap fun stem =>
    FileFormat.all.flatMap fun format => format.extensions.map fun extension =>
      stem ++ "." ++ extension

/-- The file of a path and its format. A file of exactly that name wins, and then its extension
has to be known; else the path lacks its extension. -/
def find? (library : FileLibrary) (read : String → Option String) (path : String) :
    Option (FileFormat × String) :=
  match read path with
  | some text => (((fileName? path).bind extension?).bind FileFormat.ofExtension?).map (·, text)
  | none =>
    (stem? path).bind fun stem =>
      library.order.findSome? fun format =>
        format.extensions.findSome? fun extension =>
          (read (stem ++ "." ++ extension)).map (format, ·)

end DictionaryFile

namespace RawSchema

/-- Takes one setting. -/
def take? (raw : RawSchema) (field : String) (s : Setting) : Option RawSchema :=
  match field with
  | "units" => return { raw with units := ← s.optionalText? }
  | "format" => return { raw with format := ← s.optionalText? }
  | "min" => return { raw with min := s.toJson.canonical.asOptional }
  | "max" => return { raw with max := s.toJson.canonical.asOptional }
  | _ => return raw

/-- Reads a loosely typed schema. -/
def ofSetting? (s : Setting) : Option RawSchema :=
  s.readRecord? ["units", "format", "min", "max"] {} take? some

end RawSchema

namespace MeasurementDefinition

/-- Takes one setting. -/
def take? (draft : MeasurementDraft) (field : String) (s : Setting) : Option MeasurementDraft :=
  match field with
  | "name" => return { draft with name := some (← s.text?) }
  | "channel" => return { draft with channel := some (← s.text?) }
  | "values" => return { draft with values := ← (← s.items?).mapM RawSchema.ofSetting? }
  | _ => return draft

/-- Reads a declared measurement. -/
def ofSetting? (s : Setting) : Option MeasurementDefinition :=
  s.readRecord? ["name", "channel", "values"] {} take? fun draft => draft.finish.toOption

end MeasurementDefinition

namespace DictionaryDefinition

/-- Takes one setting. -/
def take? (draft : DictionaryDraft) (field : String) (s : Setting) : Option DictionaryDraft :=
  match field with
  | "name" => return { draft with name := some (← s.text?) }
  | "key" => return { draft with key := some (← s.text?) }
  | "measurements" =>
    return { draft with measurements := ← (← s.items?).mapM MeasurementDefinition.ofSetting? }
  | _ => return draft

/-- Reads a declared dictionary. -/
def ofSetting? (s : Setting) : Option DictionaryDefinition :=
  s.readRecord? ["name", "key", "measurements"] {} take? fun draft => draft.finish.toOption

/-- Reads the list of declared dictionaries; a file without one declares none. -/
def listOf? (entries : List (String × Setting)) : Option (List DictionaryDefinition) :=
  match Setting.lookup? "dictionaries" entries with
  | none => some []
  | some s => s.items? >>= (·.mapM ofSetting?)

end DictionaryDefinition

/-- The definitions in the file that a path names, if it can be read. -/
def DictionaryFile.definitions? (library : FileLibrary) (read : String → Option String)
    (path : String) : Option (List DictionaryDefinition) := do
  let (format, text) ← find? library read path
  DictionaryDefinition.listOf? (← library.read? format (withoutMark text))

namespace Dictionary

/-- Builds declared dictionaries one after the other. -/
def buildAll : List DictionaryDefinition → Except DictionaryError (List Dictionary)
  | [] => .ok []
  | definition :: rest => do
    let d ← definition.build
    let ds ← buildAll rest
    return d :: ds

/-- **The dictionaries of the file that a path names**, or the first thing that went wrong; `read`
gives the text of the file at a path. -/
def loadWith (library : FileLibrary) (read : String → Option String) (path : String) :
    Except ConfigError (List Dictionary) :=
  match DictionaryFile.definitions? library read path with
  | none => .error .unreadable
  | some definitions =>
    match buildAll definitions with
    | .error e => .error (.dictionary e)
    | .ok dictionaries => .ok dictionaries

/-- The dictionaries of a file that the library of the program reads. -/
def load (read : String → Option String) (path : String) : Except ConfigError (List Dictionary) :=
  loadWith .standard read path

end Dictionary

end TelemetryRelay

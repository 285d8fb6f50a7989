import TelemetryRelay.Decimal.FloatText

/-!
# Line protocol

The form in which samples are written to the archive: the dictionary's key, the measurement as a
tag, the value as a field, and the time. A backslash goes before the characters that would end a
part too early.

`LineProtocol.read?` takes such texts apart again: a backslash before a comma, a space or an equals
sign makes that character literal, the ones without a backslash separate the parts, and a newline
ends the line.
-/

namespace TelemetryRelay.LineProtocol

/-- Puts a backslash before every character that `special` names. -/
def escape (special : Char → Bool) (cs : List Char) : List Char :=
  cs.flatMap fun c => if special c then ['\\', c] else [c]

/-- The characters that end the key of a line. -/
def endsKey (c : Char) : Bool := c == ',' || c == ' '

/-- The characters that end the value of a tag. -/
def endsTag (c : Char) : Bool := c == ',' || c == '=' || c == ' '

/-- The characters of a line. -/
def chars (key measurement : String) (time : Int) (value : Float) : List Char :=
  escape endsKey key.toList ++ ",measurement=".toList ++ escape endsTag measurement.toList ++
    " value=".toList ++ Decimal.messageStyle.chars value ++ ' ' :: Decimal.ofInt time

/-- The line of one sample. -/
def line (key measurement : String) (time : Int) (value : Float) : String :=
  String.ofList (chars key measurement time value)

/-! ### Reading -/

/-- Cuts a text at every character that `separates` names and that has no backslash right before it;
`behind` says whether there is one before the first character. -/
def cutFrom (separates : Char → Bool) (behind : Bool) : List Char → List (List Char)
  | [] => [[]]
  | c :: rest =>
    if separates c && !behind then [] :: cutFrom separates false rest
    else (cutFrom separates (c == '\\') rest).modifyHead (c :: ·)

/-- Cuts a text into its parts. -/
def cut (separates : Char → Bool) (cs : List Char) : List (List Char) := cutFrom separates false cs

/-- Takes away the backslash before every character that `special` names. -/
def unescape (special : Char → Bool) : List Char → List Char
  | [] => []
  | '\\' :: c :: rest =>
    if special c then c :: unescape special rest else '\\' :: unescape special (c :: rest)
  | c :: rest => c :: unescape special rest

/-- What one line says. -/
structure Entry where
  key : String
  tags : List (String × String)
  fields : List (String × String)
  time : Int
deriving DecidableEq, Repr

/-- Reads a tag or a field: a name, an equals sign and a value. -/
def readPair? (cs : List Char) : Option (String × String) :=
  match cut (· == '=') cs with
  | [name, value] =>
    some (String.ofList (unescape endsTag name), String.ofList (unescape endsTag value))
  | _ => none

/-- Reads the key of a line and the tags after it. -/
def readSeries? (cs : List Char) : Option (String × List (String × String)) :=
  match cut (· == ',') cs with
  | key :: tags => (tags.mapM readPair?).map (String.ofList (unescape endsKey key), ·)
  | [] => none

/-- Reads a line: the key with the tags, the fields and the time, with a space in between. -/
def readEntry? (cs : List Char) : Option Entry :=
  match cut (· == ' ') cs with
  | [series, fields, time] => do
    let (key, tags) ← readSeries? series
    let fields ← (cut (· == ',') fields).mapM readPair?
    let time ← (Decimal.parseInt64 (String.ofList time)).toOption
    return ⟨key, tags, fields, time⟩
  | _ => none

/-- **Reads a text**, of which every line that is not empty says one thing. -/
def read? (text : String) : Option (List Entry) :=
  ((text.toList.splitOn '\n').filter fun cs => !cs.isEmpty).mapM readEntry?

end TelemetryRelay.LineProtocol

import TelemetryRelay.Json.Parser

/-!
# Text, keys and gaps of TOML

The lexical side of the format: blanks and comments, the four kinds of strings, and dotted keys. A
reader returns what it read and the rest of the text.
-/

namespace TelemetryRelay.Toml

/-- The blanks within a line. -/
def isBlank (c : Char) : Bool := c == ' ' || c == '\t'

/-- The characters that comments and strings may hold as they are. -/
def isPlain (c : Char) : Bool := c == '\t' || (0x20 ≤ c.toNat && c.toNat != 0x7F)

/-- The text after leading blanks. -/
def skipBlanks (cs : List Char) : List Char := cs.dropWhile isBlank

/-- The text after a comment, if one comes next. -/
def skipComment (cs : List Char) : List Char :=
  match cs with
  | '#' :: rest => rest.dropWhile isPlain
  | _ => cs

/-- The text after the end of a line, if it comes next. -/
def newline? (cs : List Char) : Option (List Char) :=
  match cs with
  | '\n' :: rest => some rest
  | '\r' :: '\n' :: rest => some rest
  | _ => none

/-- The text after the rest of a line that holds no more than blanks and a comment. -/
def lineEnd? (cs : List Char) : Option (List Char) :=
  match skipComment (skipBlanks cs) with
  | [] => some []
  | rest => newline? rest

/-- The text after blanks, comments and ends of lines. -/
def skipGaps : Nat → List Char → List Char
  | 0, cs => cs
  | lines + 1, cs =>
    let rest := skipComment (skipBlanks cs)
    match newline? rest with
    | some rest => skipGaps lines rest
    | none => rest

/-- The text after everything that may stand between the items of an array. -/
def skipGap (cs : List Char) : List Char := skipGaps cs.length cs

/-- Reads `count` hexadecimal digits onto `acc`. -/
def readHex : (count acc : Nat) → List Char → Option (Nat × List Char)
  | 0, acc, cs => some (acc, cs)
  | _ + 1, _, [] => none
  | count + 1, acc, c :: cs => do readHex count (16 * acc + (← Json.hexDigit? c)) cs

/-- Reads the code of a character in `count` digits; codes that are no characters are refused. -/
def readCode (count : Nat) (cs : List Char) : Option (Char × List Char) := do
  let (code, rest) ← readHex count 0 cs
  if code.isValidChar then some (Char.ofNat code, rest) else none

/-- The character that a letter after a backslash stands for. -/
def shortEscape? : Char → Option Char
  | 'b' => some '\x08'
  | 't' => some '\t'
  | 'n' => some '\n'
  | 'f' => some '\x0c'
  | 'r' => some '\r'
  | '"' => some '"'
  | '\\' => some '\\'
  | _ => none

/-- Reads an escape whose backslash has been passed. -/
def readEscape (cs : List Char) : Option (Char × List Char) :=
  match cs with
  | 'u' :: rest => readCode 4 rest
  | 'U' :: rest => readCode 8 rest
  | c :: rest => (shortEscape? c).map (·, rest)
  | [] => none

/-- Reads a string on one line up to the quote that ends it. -/
def readLineString (quote : Char) (escapes : Bool) : Nat → List Char →
    Option (List Char × List Char)
  | 0, _ => none
  | _ + 1, [] => none
  | fuel + 1, c :: cs =>
    if c = quote then some ([], cs)
    else if escapes && c = '\\' then do
      let (c, rest) ← readEscape cs
      let (body, rest) ← readLineString quote escapes fuel rest
      return (c :: body, rest)
    else if isPlain c then
      (readLineString quote escapes fuel cs).map fun (body, rest) => (c :: body, rest)
    else none

/-- Up to two quotes right behind the three that end a string belong to it. -/
def trailingQuotes (quote : Char) (cs : List Char) : List Char × List Char :=
  match cs with
  | a :: b :: rest =>
    if a = quote then if b = quote then ([a, b], rest) else ([a], b :: rest) else ([], cs)
  | [a] => if a = quote then ([a], []) else ([], cs)
  | [] => ([], [])

/-- Whether the text goes on with three quotes. -/
def atFence (quote : Char) (cs : List Char) : Bool :=
  cs.take 3 == [quote, quote, quote]

/-- The text after blanks and ends of lines, where a backslash ended the line. -/
def skipFold (cs : List Char) : List Char :=
  cs.dropWhile fun c => isBlank c || c == '\n' || c == '\r'

/-- Reads a string of several lines up to the three quotes that end it. -/
def readBlockString (quote : Char) (escapes : Bool) : Nat → List Char →
    Option (List Char × List Char)
  | 0, _ => none
  | _ + 1, [] => none
  | fuel + 1, c :: cs =>
    if atFence quote (c :: cs) then some (trailingQuotes quote (cs.drop 2))
    else if escapes && c = '\\' then
      match newline? (skipBlanks cs) with
      | some rest => readBlockString quote escapes fuel (skipFold rest)
      | none => do
        let (c, rest) ← readEscape cs
        let (body, rest) ← readBlockString quote escapes fuel rest
        return (c :: body, rest)
    else
      match newline? (c :: cs) with
      | some rest =>
        (readBlockString quote escapes fuel rest).map fun (body, after) =>
          ((c :: cs).take (cs.length + 1 - rest.length) ++ body, after)
      | none =>
        if isPlain c then
          (readBlockString quote escapes fuel cs).map fun (body, rest) => (c :: body, rest)
        else none

/-- Whether strings in these quotes know escapes, if they are quotes at all. -/
def quoteKind? : Char → Option Bool
  | '"' => some true
  | '\'' => some false
  | _ => none

/-- Reads a string of any kind. -/
def readString (cs : List Char) : Option (String × List Char) := do
  let quote ← cs.head?
  let escapes ← quoteKind? quote
  let (body, rest) ←
    if atFence quote cs then
      let rest := cs.drop 3
      readBlockString quote escapes (cs.length + 1) ((newline? rest).getD rest)
    else readLineString quote escapes (cs.length + 1) (cs.drop 1)
  return (String.ofList body, rest)

/-- The characters of keys that need no quotes. -/
def isBare (c : Char) : Bool :=
  ('a' ≤ c && c ≤ 'z') || ('A' ≤ c && c ≤ 'Z') || ('0' ≤ c && c ≤ '9') || c == '_' || c == '-'

/-- Reads one key: bare, or a string on one line. -/
def readKey (cs : List Char) : Option (String × List Char) :=
  match cs with
  | [] => none
  | c :: _ =>
    if (quoteKind? c).isSome then if atFence c cs then none else readString cs
    else
      let bare := cs.takeWhile isBare
      if bare.isEmpty then none else some (String.ofList bare, cs.drop bare.length)

/-- Reads keys joined by dots. -/
def readPath : Nat → List Char → Option (List String × List Char)
  | 0, _ => none
  | fuel + 1, cs => do
    let (key, rest) ← readKey (skipBlanks cs)
    match skipBlanks rest with
    | '.' :: more =>
      let (keys, rest) ← readPath fuel more
      return (key :: keys, rest)
    | rest => return ([key], rest)

end TelemetryRelay.Toml

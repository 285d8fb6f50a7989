import TelemetryRelay.Decimal.FloatText
import TelemetryRelay.Json.Basic

/-!
# Writing documents

A document as compact text: no blanks, fields in their order, and in strings only quotes,
backslashes and control characters escaped. A number that is not finite has no numeral and is
written `null`.
-/

namespace TelemetryRelay.Json

/-- The digit of a number below sixteen, in lower case. -/
def hexChar (n : Nat) : Char := if n < 10 then Char.ofNat (48 + n) else Char.ofNat (87 + n)

/-- A character inside a string. -/
def escapeChar (c : Char) : List Char :=
  match c with
  | '"' => ['\\', '"']
  | '\\' => ['\\', '\\']
  | '\x08' => ['\\', 'b']
  | '\x0c' => ['\\', 'f']
  | '\n' => ['\\', 'n']
  | '\r' => ['\\', 'r']
  | '\t' => ['\\', 't']
  | c =>
    if c.toNat < 0x20 then
      ['\\', 'u', '0', '0', hexChar (c.toNat / 16), hexChar (c.toNat % 16)]
    else [c]

/-- A string with its quotes. -/
def quoted (s : String) : List Char := '"' :: s.toList.flatMap escapeChar ++ ['"']

/-- A number. -/
def Number.chars : Number → List Char
  | .integer i => Decimal.ofInt i
  | .real x =>
    if Decimal.isFinite x then Decimal.documentStyle.chars x else ['n', 'u', 'l', 'l']

mutual

/-- The characters of a document. -/
def chars : Json → List Char
  | .null => ['n', 'u', 'l', 'l']
  | .bool true => ['t', 'r', 'u', 'e']
  | .bool false => ['f', 'a', 'l', 's', 'e']
  | .number n => n.chars
  | .string s => quoted s
  | .array items => '[' :: itemChars items
  | .object fields => '{' :: fieldChars fields

/-- Items up to the closing bracket. -/
def itemChars : List Json → List Char
  | [] => [']']
  | [item] => chars item ++ [']']
  | item :: rest => chars item ++ ',' :: itemChars rest

/-- Fields up to the closing brace. -/
def fieldChars : List (String × Json) → List Char
  | [] => ['}']
  | [(key, value)] => quoted key ++ ':' :: chars value ++ ['}']
  | (key, value) :: rest => quoted key ++ ':' :: chars value ++ ',' :: fieldChars rest

end

/-- The compact text of a document. -/
def compact (j : Json) : String := String.ofList (chars j)

end TelemetryRelay.Json

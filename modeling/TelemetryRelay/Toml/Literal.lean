import TelemetryRelay.Configuration.Setting
import TelemetryRelay.Json.Parser
import TelemetryRelay.Toml.Moment

/-!
# Scalars of TOML without quotes

Truth values, whole numbers of 64 bits in four bases, floating-point values, dates and times. The
longest run of characters that could belong to one is cut out first, and then has to be one.
-/

namespace TelemetryRelay.Toml

open Decimal (isDigit value)

/-- The digits of a run in which underscores stand only between digits. -/
def ungroup? (isDigit : Char → Bool) : List Char → Option (List Char)
  | [] => none
  | [c] => if isDigit c then some [c] else none
  | c :: '_' :: rest => if isDigit c then (ungroup? isDigit rest).map (c :: ·) else none
  | c :: d :: rest => if isDigit c then (ungroup? isDigit (d :: rest)).map (c :: ·) else none

/-- The digits of a decimal whole number, which has no leading zeros. -/
def wholeDigits? (cs : List Char) : Option (List Char) := do
  let ds ← ungroup? isDigit cs
  if ds.length > 1 ∧ ds.head? = some '0' then none else some ds

/-- The number of digits in a base. -/
def ofBase (base : Nat) (cs : List Char) : Nat :=
  cs.foldl (fun n c => base * n + (Json.hexDigit? c).getD 0) 0

/-- Whether the character is a digit of a base up to sixteen. -/
def isDigitOf (base : Nat) (c : Char) : Bool :=
  match Json.hexDigit? c with
  | some d => d < base
  | none => false

/-- The base that a letter after a leading zero stands for. -/
def base? : Char → Option Nat
  | 'x' => some 16
  | 'o' => some 8
  | 'b' => some 2
  | _ => none

/-- A whole number, if it fits into 64 bits. -/
def bounded? (i : Int) : Option Setting :=
  if Decimal.int64Min ≤ i ∧ i ≤ Decimal.int64Max then some (.scalar (.integer i)) else none

/-- Splits a sign off. -/
def splitSign (cs : List Char) : Bool × List Char :=
  match cs with
  | '-' :: rest => (true, rest)
  | '+' :: rest => (false, rest)
  | _ => (false, cs)

/-- Reads a decimal whole number. -/
def decimalInteger? (cs : List Char) : Option Setting := do
  let (negative, rest) := splitSign cs
  let n := value (← wholeDigits? rest)
  bounded? (if negative then -(n : Int) else n)

/-- Reads a whole number in a base other than ten. -/
def basedInteger? (cs : List Char) : Option Setting :=
  match cs with
  | '0' :: letter :: rest => do
    let base ← base? letter
    bounded? (ofBase base (← ungroup? (isDigitOf base) rest))
  | _ => none

/-- Whether the character belongs to a group of digits. -/
def isGrouped (c : Char) : Bool := isDigit c || c == '_'

/-- The clean text of a fraction, if one comes next. -/
def readFraction (cs : List Char) : Option (List Char × List Char) :=
  match cs with
  | '.' :: rest => do
    let ds ← ungroup? isDigit (rest.takeWhile isGrouped)
    return ('.' :: ds, rest.dropWhile isGrouped)
  | _ => some ([], cs)

/-- The clean text of an exponent, which has to end the text. -/
def exponentText? (cs : List Char) : Option (List Char) :=
  match cs with
  | [] => some []
  | c :: rest =>
    if c = 'e' ∨ c = 'E' then do
      let (negative, rest) := splitSign rest
      return 'e' :: (if negative then ['-'] else []) ++ (← ungroup? isDigit rest)
    else none

/-- A signed floating-point value. -/
def signedReal (negative : Bool) (x : Float) : Setting :=
  .scalar (.real (if negative then -x else x))

/-- Reads a floating-point value; a numeral that is too large for one is refused. -/
def real? (cs : List Char) : Option Setting :=
  let (negative, rest) := splitSign cs
  if rest = ['i', 'n', 'f'] then some (signedReal negative (1 / 0))
  else if rest = ['n', 'a', 'n'] then some (signedReal negative (0 / 0))
  else do
    let whole ← wholeDigits? (rest.takeWhile isGrouped)
    let (fraction, rest) ← readFraction (rest.dropWhile isGrouped)
    let exponent ← exponentText? rest
    if fraction.isEmpty && exponent.isEmpty then none
    let x ← Decimal.magnitude? (whole ++ fraction ++ exponent)
    if Decimal.isFinite x then some (signedReal negative x) else none

/-- The setting that a run of characters stands for. -/
def literal? (cs : List Char) : Option Setting :=
  if cs = ['t', 'r', 'u', 'e'] then some (.scalar (.bool true))
  else if cs = ['f', 'a', 'l', 's', 'e'] then some (.scalar (.bool false))
  else
    (((decimalInteger? cs).or (basedInteger? cs)).or (real? cs)).or
      ((Moment.parse? cs).map fun moment => .scalar (.text moment.text))

/-- The characters that scalars without quotes are made of. -/
def isLiteralChar (c : Char) : Bool :=
  ('a' ≤ c && c ≤ 'z') || ('A' ≤ c && c ≤ 'Z') || isDigit c || c == '_' || c == '+' || c == '-' ||
    c == '.' || c == ':'

/-- Cuts a run out. A date and a time may have one space between them. -/
def literalRun (cs : List Char) : List Char :=
  let run := cs.takeWhile isLiteralChar
  match cs.drop run.length with
  | ' ' :: c :: rest =>
    if isDigit c ∧ run.length = 10 ∧ (readDate run).isSome then
      run ++ ' ' :: (c :: rest).takeWhile isLiteralChar
    else run
  | _ => run

/-- Reads a scalar without quotes. -/
def readLiteral (cs : List Char) : Option (Setting × List Char) :=
  let run := literalRun cs
  (literal? run).map (·, cs.drop run.length)

end TelemetryRelay.Toml

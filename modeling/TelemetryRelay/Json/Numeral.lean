import TelemetryRelay.Decimal.Digits
import TelemetryRelay.Json.Basic

/-!
# Numerals of documents

A numeral is scanned into its parts (`Literal`), and the parts are then evaluated. A whole number
that fits into 64 bits stays whole. Any other becomes a double by one fixed rule: the digits that
fit into 64 bits are the significand, and the significand is multiplied or divided once by a power
of ten. Two roundings can leave the result one step away from the nearest double. A numeral whose
value is infinite by that rule is refused.
-/

namespace TelemetryRelay.Json

open Decimal (isDigit digit? value uint64Max int64Min)

/-- The parts of a numeral as written; an empty fraction means that there is none. -/
structure Literal where
  negative : Bool
  whole : List Char
  fraction : List Char
  /-- Whether the exponent is negative, and its digits. -/
  exponent : Option (Bool × List Char)
deriving DecidableEq, Repr

/-- Scans a fraction, if a point comes next. -/
def scanFraction (cs : List Char) : Option (List Char × List Char) :=
  match cs with
  | '.' :: rest =>
    let fraction := rest.takeWhile isDigit
    if fraction.isEmpty then none else some (fraction, rest.dropWhile isDigit)
  | _ => some ([], cs)

/-- Scans the digits of an exponent whose sign is known. -/
def scanExponentDigits (negative : Bool) (cs : List Char) :
    Option (Option (Bool × List Char) × List Char) :=
  let ds := cs.takeWhile isDigit
  if ds.isEmpty then none else some (some (negative, ds), cs.dropWhile isDigit)

/-- Scans an exponent, if its mark comes next. -/
def scanExponent (cs : List Char) : Option (Option (Bool × List Char) × List Char) :=
  match cs with
  | c :: rest =>
    if c = 'e' ∨ c = 'E' then
      match rest with
      | '+' :: more => scanExponentDigits false more
      | '-' :: more => scanExponentDigits true more
      | more => scanExponentDigits false more
    else some (none, cs)
  | [] => some (none, [])

/-- Scans a numeral without its minus sign. A leading zero stands alone. -/
def scanMagnitude (negative : Bool) (cs : List Char) : Option (Literal × List Char) := do
  let whole := cs.takeWhile isDigit
  let rest := cs.dropWhile isDigit
  if whole.isEmpty || (whole.head? == some '0' && whole.length > 1) then none
  let (fraction, rest) ← scanFraction rest
  let (exponent, rest) ← scanExponent rest
  return (⟨negative, whole, fraction, exponent⟩, rest)

/-- Scans a numeral. -/
def scanLiteral (cs : List Char) : Option (Literal × List Char) :=
  match cs with
  | '-' :: rest => scanMagnitude true rest
  | _ => scanMagnitude false cs

/-- Appends digits to `acc` while the number stays below `2^64`; also the digits left over. -/
def fitDigits (acc : Nat) : List Char → Nat × List Char
  | [] => (acc, [])
  | c :: cs =>
    let next := 10 * acc + (digit? c).getD 0
    if next ≤ uint64Max then fitDigits next cs else (acc, c :: cs)

/-- The double nearest to `10^n`. -/
def tenTo (n : Nat) : Float := Float.ofScientific 1 false n

/-- Whether the double is infinite. -/
def isInfinite (x : Float) : Bool := x == 1 / 0 || x == -1 / 0

/-- Multiplies or divides by `10^|e|`, below `10^-308` in several steps; no result if infinite. -/
def scaled (f : Float) (e : Int) : Option Float :=
  if e.natAbs ≤ 308 then
    if 0 ≤ e then
      let product := f * tenTo e.natAbs
      if isInfinite product then none else some product
    else some (f / tenTo e.natAbs)
  else if f == 0 then some f
  else if 0 ≤ e then none
  else scaled (f / tenTo 308) (e + 308)
termination_by e.natAbs
decreasing_by omega

/-- The double with a sign. -/
def signed (negative : Bool) (x : Float) : Float := if negative then -x else x

/-- The greatest exponent that is read digit by digit. -/
def greatestExponent : Nat := 2147483647

/-- The double of a numeral whose digits gave `significand · 10^shift`. -/
def Literal.real? (l : Literal) (significand : Nat) (shift : Int) : Option Float :=
  match l.exponent with
  | none => (scaled (Float.ofNat significand) shift).map (signed l.negative)
  | some (downwards, ds) =>
    let e := value ds
    if greatestExponent < e then
      if significand ≠ 0 ∧ !downwards then none else some (signed l.negative 0)
    else
      (scaled (Float.ofNat significand) (if downwards then shift - e else shift + e)).map
        (signed l.negative)

/-- The number that a numeral stands for; none if it is infinite. -/
def Literal.number? (l : Literal) : Option Number :=
  let (significand, skipped) := fitDigits 0 l.whole
  if l.fraction.isEmpty && l.exponent.isNone && skipped.isEmpty then
    if !l.negative then some (.integer significand)
    else if significand = 0 ∨ -(significand : Int) < int64Min then
      some (.real (-(Float.ofNat significand)))
    else some (.integer (-(significand : Int)))
  else
    let (significand, ignored) := fitDigits significand l.fraction
    (l.real? significand (skipped.length - (l.fraction.length - ignored.length : Nat))).map .real

/-- Reads a number from the start of the text. -/
def readNumber (cs : List Char) : Option (Number × List Char) := do
  let (literal, rest) ← scanLiteral cs
  let number ← literal.number?
  return (number, rest)

end TelemetryRelay.Json

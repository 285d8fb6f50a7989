import TelemetryRelay.Decimal.Digits
import TelemetryRelay.Decimal.Shortest

/-!
# Reading floating-point values

Numerals with an optional fraction and exponent, and the words for infinity and for no number,
become the nearest double. `roundedToNatural` goes the other way, to the nearest natural number.
-/

namespace TelemetryRelay.Decimal

/-- The double nearest to `coefficient · 10^exponent`. Exponents beyond the reach of doubles are
cut short: the result is then zero or infinite. -/
def nearestFloat (coefficient : Nat) (exponent : Int) : Float :=
  if coefficient = 0 then 0
  else
    let first : Int := exponent + (digits coefficient).length
    if first > 400 then 1 / 0
    else if first < -400 then 0
    else if 0 ≤ exponent then Float.ofScientific coefficient false exponent.natAbs
    else Float.ofScientific coefficient true exponent.natAbs

/-- Reads the digits of an exponent with an optional sign; the whole text has to be read. -/
def exponent? (cs : List Char) : Option Int :=
  let (negative, ds) := match cs with
    | '-' :: ds => (true, ds)
    | '+' :: ds => (false, ds)
    | ds => (false, ds)
  if ds.isEmpty || !ds.all isDigit then none
  else some (if negative then -(value ds : Int) else value ds)

/-- Reads a numeral without sign: digits before or after the point, and an exponent. -/
def magnitude? (cs : List Char) : Option Float :=
  let whole := cs.takeWhile isDigit
  let rest := cs.drop whole.length
  let (fraction, rest) := match rest with
    | '.' :: more => (more.takeWhile isDigit, more.dropWhile isDigit)
    | _ => ([], rest)
  if whole.isEmpty && fraction.isEmpty then none
  else
    let scale : Int := -(fraction.length : Int)
    match rest with
    | [] => some (nearestFloat (value (whole ++ fraction)) scale)
    | c :: more =>
      if c = 'e' ∨ c = 'E' then
        (exponent? more).map fun e => nearestFloat (value (whole ++ fraction)) (scale + e)
      else none

/-- The value of a word, without regard to case. -/
def namedFloat? (cs : List Char) : Option Float :=
  let lower := cs.map fun c => if 'A' ≤ c ∧ c ≤ 'Z' then Char.ofNat (c.toNat + 32) else c
  if lower = ['i', 'n', 'f'] ∨ lower = ['i', 'n', 'f', 'i', 'n', 'i', 't', 'y'] then some (1 / 0)
  else if lower = ['n', 'a', 'n'] then some (0 / 0)
  else none

/-- Reads a floating-point value; the whole text has to be read. -/
def parseFloat? (s : String) : Option Float :=
  let unsigned (cs : List Char) : Option Float := (magnitude? cs).or (namedFloat? cs)
  match s.toList with
  | '-' :: cs => (unsigned cs).map fun x => -x
  | '+' :: cs => unsigned cs
  | cs => unsigned cs

/-- The natural number nearest to a double, halves upwards, and the nearest end of the range where
the double lies outside it; no number counts as zero. -/
def roundedToNatural (greatest : Nat) (x : Float) : Nat :=
  match Binary.ofFloat x with
  | .nan => 0
  | .infinite negative => if negative then 0 else greatest
  | .finite true _ _ => 0
  | .finite false m q =>
    let up := m * Nat.pow 2 (q.toNat + 1)
    let down := Nat.pow 2 ((-q).toNat + 1)
    Nat.min greatest ((up + down / 2) / down)

end TelemetryRelay.Decimal

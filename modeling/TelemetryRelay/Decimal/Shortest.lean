import TelemetryRelay.Decimal.Digits

/-!
# The shortest decimal of a binary number

A finite double is `m · 2^q`. Every real number in an interval around it rounds to it, and the
decimal written for it is the point of the coarsest decimal grid that meets this interval, the
nearest such point if there are two. So no shorter decimal reads back as the same double, and of
those that do none is nearer.
-/

namespace TelemetryRelay.Decimal

/-- What the bits of a double say. -/
inductive Binary where
  | nan
  | infinite (negative : Bool)
  | finite (negative : Bool) (significand : Nat) (exponent : Int)
deriving DecidableEq, Repr

/-- The significand's leading bit, which is not stored: the 52nd power of two. -/
def leadingBit : Nat := 0x10000000000000

/-- Splits a double into sign, significand and exponent of two. -/
def Binary.ofBits (bits : UInt64) : Binary :=
  let n := bits.toNat
  let negative := n / (leadingBit * 0x800) == 1
  let biased : Nat := n / leadingBit % 0x800
  let fraction : Nat := n % leadingBit
  if biased = 2047 then if fraction = 0 then .infinite negative else .nan
  else if biased = 0 then .finite negative fraction (-1074)
  else .finite negative (leadingBit + fraction) ((biased : Int) - 1075)

/-- Splits a double. -/
def Binary.ofFloat (x : Float) : Binary := .ofBits x.toBits

/-- A decimal `coefficient · 10^exponent`. -/
structure Numeral where
  coefficient : Nat
  exponent : Int
deriving DecidableEq, Repr

/-- The interval of reals that round to `m · 2^q`, scaled: `value`, `low` and `high` are the
number and the ends, all times `4 · 2^-q`; the ends belong to the interval iff `closed`. -/
structure Interval where
  value : Nat
  low : Nat
  high : Nat
  closed : Bool

/-- The interval around `m · 2^q`. Below a power of two the neighbours are twice as dense, so
there the lower end is half as far away. -/
def Interval.around (m : Nat) (q : Int) : Interval where
  value := 4 * m
  low := if m = leadingBit ∧ q ≠ -1074 then 4 * m - 1 else 4 * m - 2
  high := 4 * m + 2
  closed := m % 2 == 0

/-- Whether `numerator / denominator` times the scale lies in the interval. -/
def Interval.contains (i : Interval) (up down : Nat) (c : Nat) : Bool :=
  if i.closed then i.low * up ≤ c * down && c * down ≤ i.high * up
  else i.low * up < c * down && c * down < i.high * up

/-- The point of the grid of multiples of `10^k` that lies in the interval and is nearest to
`value · 2^(q-2)`, if there is one. -/
def Interval.gridPoint? (i : Interval) (q k : Int) : Option Nat :=
  let up := Nat.pow 2 (q - 2).toNat * Nat.pow 10 (-k).toNat
  let down := Nat.pow 2 (2 - q).toNat * Nat.pow 10 k.toNat
  let scaled := i.value * up
  let below := scaled / down
  match i.contains up down below, i.contains up down (below + 1) with
  | true, true =>
    let gap := 2 * (scaled % down)
    some (if gap < down ∨ gap = down ∧ below % 2 = 0 then below else below + 1)
  | true, false => some below
  | false, true => some (below + 1)
  | false, false => none

/-- Tries the grids `10^k`, `10^(k-1)`, … and takes the first that meets the interval. -/
def Interval.coarsest (i : Interval) (q : Int) : Nat → Int → Numeral
  | 0, k => ⟨i.value, k⟩
  | tries + 1, k =>
    match i.gridPoint? q k with
    | some c => ⟨c, k⟩
    | none => coarsest i q tries (k - 1)

/-- A power of ten above the whole interval around `m · 2^q`: the logarithm of two is less than
`0.30103`, and `2^(log₂ m + 2)` bounds the interval's upper end. -/
def Interval.ceiling (m : Nat) (q : Int) : Int :=
  ((Nat.log2 m : Int) + q + 2) * 30103 / 100000 + 1

/-- The decimal written for `m · 2^q`. Seventeen digits tell any two doubles apart, so the search
ends before the last of its grids. -/
def shortest (m : Nat) (q : Int) : Numeral :=
  if m = 0 then ⟨0, 0⟩ else (Interval.around m q).coarsest q 25 (Interval.ceiling m q)

end TelemetryRelay.Decimal

import TelemetryRelay.Decimal.FloatReader
import TelemetryRelay.Decimal.FloatText
import TelemetryRelay.Text.Characters

/-!
# Scalars of settings

A setting holds a truth value, a whole number, a floating-point value or a text. Where a setting
needs another kind, the scalar is turned into it: `toText` writes any scalar as text, `toNatural?`
reads a natural number out of one.
-/

namespace TelemetryRelay

/-- A value of a setting, by its looks. -/
inductive Scalar where
  | bool (b : Bool)
  | integer (i : Int)
  | real (x : Float)
  | text (s : String)

namespace Scalar

/-- Reads a text as a truth value, a whole number, a floating-point value, or else as text. -/
def ofText (s : String) : Scalar :=
  match Text.lowerAscii s with
  | "true" => .bool true
  | "false" => .bool false
  | _ =>
    match Decimal.parseInt64 s with
    | .ok i => .integer i
    | .error _ =>
      match Decimal.parseFloat? s with
      | some x => .real x
      | none => .text s

/-- The value as text. -/
def toText : Scalar → String
  | .bool b => if b then "true" else "false"
  | .integer i => Decimal.intText i
  | .real x => Decimal.messageText x
  | .text s => s

/-- The value as a natural number of 64 bits. -/
def toNatural? : Scalar → Option Nat
  | .bool b => some (if b then 1 else 0)
  | .integer i => if 0 ≤ i then some i.toNat else none
  | .real x => some (Decimal.roundedToNatural Decimal.uint64Max x)
  | .text s =>
    match Text.lowerAscii s with
    | "yes" => some 1
    | "on" => some 1
    | "no" => some 0
    | "off" => some 0
    | _ => none

end Scalar

end TelemetryRelay

import TelemetryRelay.Decimal.Digits

/-!
# Text of durations

A duration in milliseconds, in whole milliseconds below a second and in seconds from there on,
with as many places as it needs. No time at all is written in the smallest unit.
-/

namespace TelemetryRelay.Text

/-- The places of a part of a second, without trailing zeros. -/
def places (milliseconds : Nat) : List Char :=
  let three := [milliseconds / 100, milliseconds / 10 % 10, milliseconds % 10]
  ((three.reverse.dropWhile (· == 0)).reverse).map Decimal.digitChar

/-- The text of a duration. -/
def duration (milliseconds : Nat) : String :=
  if milliseconds = 0 then "0ns"
  else if milliseconds < 1000 then Decimal.natText milliseconds ++ "ms"
  else
    let fraction := places (milliseconds % 1000)
    Decimal.natText (milliseconds / 1000) ++
      String.ofList (if fraction.isEmpty then ['s'] else '.' :: fraction ++ ['s'])

end TelemetryRelay.Text

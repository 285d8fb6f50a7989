import TelemetryRelay.Text.Percent
import TelemetryRelay.Url.Domain.Composition
import TelemetryRelay.Url.Domain.Direction
import TelemetryRelay.Url.Domain.Replacement
import TelemetryRelay.Url.Punycode

/-!
# Domains

The ASCII form of a domain name. The name is brought to the one way of writing that counts and cut
into labels; a label that holds characters past ASCII is written in punycode. A label that comes in
punycode has to stand for one that would be written so.
-/

namespace TelemetryRelay.Domain

/-- The punycode of a label that opens with `xn--`. -/
def punycoded? : List Char → Option (List Char)
  | 'x' :: 'n' :: '-' :: '-' :: rest => some rest
  | _ => none

/-- Whether a character is one that counts, and not a way to write others. -/
def isSettled (c : Char) : Bool := foldChar? c == some [c]

/-- Whether a text is a label: written in the way that counts, with marks and joiners only where
they belong, and not itself a punycode. -/
def isLabel (label : List Char) : Bool :=
  label.all isSettled && compose label == label && !(label.head?.any Text.isMark) &&
    joinersFit [] label && (punycoded? label).isNone

/-- The label that is written. -/
def readLabel? (written : List Char) : Option (List Char) :=
  match punycoded? written with
  | none => if isLabel written then some written else none
  | some code =>
    match Punycode.decode? code with
    | none => none
    | some label =>
      if label.any (128 ≤ ·.toNat) && isLabel label && Punycode.encode label == code then some label
      else none

/-- The ASCII form of a label. -/
def writeLabel (label : List Char) : List Char :=
  if label.all (·.toNat < 128) then label else ['x', 'n', '-', '-'] ++ Punycode.encode label

/-- The labels of a domain name. -/
def labels? (cs : List Char) : Option (List (List Char)) := do
  let folded ← fold? cs
  let labels ← ((compose folded).splitOn '.').mapM readLabel?
  if directionsFit labels then some labels else none

/-- The ASCII form of a domain name. -/
def toAscii? (cs : List Char) : Option (List Char) :=
  (labels? cs).map fun labels => ['.'].intercalate (labels.map writeLabel)

end TelemetryRelay.Domain

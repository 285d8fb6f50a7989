import TelemetryRelay.Text.Mark

/-!
# Directions of writing

Where a name holds characters of scripts that run from right to left, each of its labels has to
run one way only, so that it cannot be shown as another name: it begins with a letter and ends with
a letter or a digit, the marks behind it aside, and between them stands nothing that runs the other
way.

The tables hold for characters that can occur in a domain.
-/

namespace TelemetryRelay.Domain

/-- The way a character runs. Marks take the direction of the character before them. -/
inductive Direction where
  | leftToRight
  | rightToLeft
  | europeanNumber
  | arabicNumber
  | neutral
  | inherited
deriving DecidableEq, Repr

/-- The digits of Arabic script. -/
def arabicNumbers : Ranges := .ofText "660-669 66B-66C 10D30-10D39 10E60-10E7E"

/-- The digits past ASCII that run like those in it. -/
def europeanNumbers : Ranges := .ofText "6F0-6F9 102E1-102FB"

/-- The characters past ASCII that run either way. -/
def neutrals : Ranges := .ofText "
    A1-D7 F7 2B9-2BA 2C2-2CF 2D2-2ED 2EF-2FF 375 3F6 58A-58F 606-607 609-60A 60C 60E-60F 66A 6DE
    6E9 7F6-7F9 9F2-9F3 9FB AF1 BF3-BFA C78-C7E E3F F3A-F3D 1390-1399 1400 169B-169C 17DB
    17F0-180A 1940-1945 19DE-19FF 200C-214D 218A-2335 237B-2394 2396-2426 2440-26AB 26AD-27FF
    2900-2B95 2B97-2BFF 2CE5-2CEA 2CF9-2CFF 2E00-3004 3008-3020 3030 3037 303D-303F 30A0 30FB
    31C0-31E3 4DC0-4DFF A490-A4C6 A60D-A60F A673-A67F A700-A721 A788 A828-A82B A838-A839
    A874-A877 AB6A-AB6B FD3E-FD4F FDCF-FE46 10101 10140-1018C 10190-101A0 1091F 10B39-10B3F
    11052-11065 11660-1166C 11FD5-11FF1 16FE2 1D1E9-1D245 1D300-1D356 1E2FF 1EEF0-1F12F
    1F16D-1F16F 1F1AD 1F260-1F6D7 1F6DC-1F776 1F77B-1F8B1 1F900-1FA53 1FA60-1FA88 1FA90-1FABD
    1FABF-1FAC5 1FACE-1FADB 1FAE0-1FAE8 1FAF0-1FBCA"

/-- The blocks of scripts that run from right to left. -/
def rightToLeftBlocks : Ranges := .ofText "5BE-8C9 FBB2-FE73 10800-10FF6 1E800-1ED3D"

/-- The way a character runs. -/
def Direction.of (c : Char) : Direction :=
  let n := c.toNat
  if n < 0x80 then
    if c.isAlpha then .leftToRight else if c.isDigit then .europeanNumber else .neutral
  else if Text.nonspacingMarks.has n then .inherited
  else if arabicNumbers.has n then .arabicNumber
  else if europeanNumbers.has n then .europeanNumber
  else if neutrals.has n then .neutral
  else if rightToLeftBlocks.has n then .rightToLeft
  else .leftToRight

/-- Whether a character of this direction makes the directions of a name matter. -/
def Direction.matters (d : Direction) : Bool := d == .rightToLeft || d == .arabicNumber

/-- Whether a label with these directions runs one way. -/
def runsOneWay (ds : List Direction) : Bool :=
  let last := (ds.reverse.dropWhile (· == .inherited)).head?
  match ds with
  | [] => true
  | .leftToRight :: _ =>
    !ds.any Direction.matters && (last == some .leftToRight || last == some .europeanNumber)
  | .rightToLeft :: _ =>
    !ds.contains .leftToRight && last != some .neutral &&
      !(ds.contains .europeanNumber && ds.contains .arabicNumber)
  | _ => false

/-- Whether the directions of all labels of a name agree with the rule. -/
def directionsFit (labels : List (List Char)) : Bool :=
  let directions := labels.map (·.map Direction.of)
  !directions.any (·.any Direction.matters) || directions.all runsOneWay

end TelemetryRelay.Domain

import TelemetryRelay.Decimal.Digits

/-!
# Punycode

Labels with characters outside ASCII, written in ASCII. The characters are listed in order of
their code points, and each is given by how far it lies behind the one before, as a number whose
digits have a variable weight.
-/

namespace TelemetryRelay.Punycode

/-- The character of a digit below 36: a letter, then a decimal digit. -/
def digitChar (d : Nat) : Char := if d < 26 then Char.ofNat (97 + d) else Char.ofNat (22 + d)

/-- The value of a digit. -/
def digit? (c : Char) : Option Nat :=
  if 'a' ≤ c ∧ c ≤ 'z' then some (c.toNat - 97)
  else if '0' ≤ c ∧ c ≤ '9' then some (c.toNat - 22)
  else none

/-- The greatest weightless digit at a place. -/
def threshold (place bias : Nat) : Nat :=
  if place ≤ bias then 1 else if bias + 26 ≤ place then 26 else place - bias

/-- Scales a distance down until it is small; counts the places. -/
def scaleDown (delta places : Nat) : Nat × Nat :=
  if 455 < delta then scaleDown (delta / 35) (places + 36) else (delta, places)
termination_by delta

/-- The bias after a distance, when `count` characters have been placed. -/
def adapt (delta count : Nat) (first : Bool) : Nat :=
  let start := if first then delta / 700 else delta / 2
  let (rest, places) := scaleDown (start + start / count) 0
  places + 36 * rest / (rest + 38)

/-- The digits of a distance. -/
def encodeDistance : (fuel place bias delta : Nat) → List Char
  | 0, _, _, _ => []
  | fuel + 1, place, bias, delta =>
    let t := threshold place bias
    if delta < t then [digitChar delta]
    else
      digitChar (t + (delta - t) % (36 - t)) ::
        encodeDistance fuel (place + 36) bias ((delta - t) / (36 - t))

/-- What has been written, and how to write the next distance. -/
structure Encoder where
  written : List Char
  delta : Nat
  bias : Nat
  count : Nat

/-- Looks at one character of the label while `point` is the code point to be placed. -/
def Encoder.visit (basic point : Nat) (e : Encoder) (c : Char) : Encoder :=
  if c.toNat < point then { e with delta := e.delta + 1 }
  else if c.toNat = point then
    { written := e.written ++ encodeDistance (e.delta + 1) 36 e.bias e.delta
      delta := 0
      bias := adapt e.delta (e.count + 1) (e.count == basic)
      count := e.count + 1 }
  else e

/-- Places the code points one after the other. -/
def encodePoints (label : List Char) (basic : Nat) : List Nat → Nat → Encoder → Encoder
  | [], _, e => e
  | point :: rest, next, e =>
    let start := { e with delta := e.delta + (point - next) * (e.count + 1) }
    let placed := label.foldl (Encoder.visit basic point) start
    encodePoints label basic rest (point + 1) { placed with delta := placed.delta + 1 }

/-- The punycode of a label. -/
def encode (label : List Char) : List Char :=
  let basic := label.filter (·.toNat < 128)
  let points := ((label.map Char.toNat).filter (128 ≤ ·)).mergeSort.eraseDups
  let start := if basic.isEmpty then [] else basic ++ ['-']
  (encodePoints label basic.length points 128 ⟨start, 0, 72, basic.length⟩).written

/-- Reads one distance onto `acc`. -/
def decodeDistance : (place bias weight acc : Nat) → List Char → Option (Nat × List Char)
  | _, _, _, _, [] => none
  | place, bias, weight, acc, c :: cs =>
    match digit? c with
    | none => none
    | some d =>
      let t := threshold place bias
      if d < t then some (acc + d * weight, cs)
      else decodeDistance (place + 36) bias (weight * (36 - t)) (acc + d * weight) cs

/-- Inserts characters by their distances. -/
def decodePoints : (fuel : Nat) → (label : List Char) → (point index bias : Nat) → (first : Bool) →
    List Char → Option (List Char)
  | _, label, _, _, _, _, [] => some label
  | 0, _, _, _, _, _, _ :: _ => none
  | fuel + 1, label, point, index, bias, first, cs =>
    match decodeDistance 36 bias 1 index cs with
    | none => none
    | some (reached, rest) =>
      let size := label.length + 1
      let next := point + reached / size
      let place := reached % size
      if next < 0xD800 ∨ (0xDFFF < next ∧ next < 0x110000) then
        decodePoints fuel (label.take place ++ Char.ofNat next :: label.drop place) next (place + 1)
          (adapt (reached - index) size first) false rest
      else none

/-- The label that a punycode stands for. -/
def decode? (cs : List Char) : Option (List Char) :=
  let tail := cs.reverse.takeWhile (· ≠ '-')
  let basic := (cs.take (cs.length - tail.length)).dropLast
  decodePoints cs.length basic 128 0 72 true tail.reverse

end TelemetryRelay.Punycode

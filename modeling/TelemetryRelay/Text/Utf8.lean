/-!
# UTF-8

Text as octets and back. `octets` writes a text, `decode?` reads octets that are well-formed
throughout, `wellFormedStart` reads as far as they are, and `decodeLossy` reads any octets, with one
replacement character for each longest malformed stretch.
-/

namespace TelemetryRelay.Utf8

/-- The octets of a text. -/
def octets (s : String) : List UInt8 := s.toUTF8.data.toList

/-- The text whose octets these are, if they are well-formed throughout. -/
def decode? (bytes : List UInt8) : Option String := String.fromUTF8? ⟨bytes.toArray⟩

/-- An octet that continues a character. -/
def isTail (b : UInt8) : Bool := 0x80 ≤ b && b ≤ 0xBF

/-- Two octets that may open a character of three: no overlong form and no surrogate. -/
def opensThree (a b : UInt8) : Bool :=
  if a == 0xE0 then 0xA0 ≤ b && b ≤ 0xBF
  else if a == 0xED then 0x80 ≤ b && b ≤ 0x9F
  else 0xE1 ≤ a && a ≤ 0xEF && isTail b

/-- Two octets that may open a character of four: no overlong form and nothing past `U+10FFFF`. -/
def opensFour (a b : UInt8) : Bool :=
  if a == 0xF0 then 0x90 ≤ b && b ≤ 0xBF
  else if a == 0xF4 then 0x80 ≤ b && b ≤ 0x8F
  else 0xF1 ≤ a && a ≤ 0xF3 && isTail b

/-- The character of two octets. -/
def joinTwo (a b : UInt8) : Char := Char.ofNat ((a.toNat - 0xC0) * 0x40 + (b.toNat - 0x80))

/-- The character of three octets. -/
def joinThree (a b c : UInt8) : Char :=
  Char.ofNat ((a.toNat - 0xE0) * 0x1000 + (b.toNat - 0x80) * 0x40 + (c.toNat - 0x80))

/-- The character of four octets. -/
def joinFour (a b c d : UInt8) : Char :=
  Char.ofNat ((a.toNat - 0xF0) * 0x40000 + (b.toNat - 0x80) * 0x1000 + (c.toNat - 0x80) * 0x40 +
    (d.toNat - 0x80))

/-- What stands at the head of a list of octets: a character of some length, or a malformed
stretch of some length (its longest part that could have begun a character, or one octet). -/
inductive Head where
  | character (c : Char) (length : Nat)
  | malformed (length : Nat)

/-- Reads the head of `a :: rest`. -/
def head (a : UInt8) (rest : List UInt8) : Head :=
  if a < 0x80 then .character (Char.ofNat a.toNat) 1
  else if 0xC2 ≤ a && a ≤ 0xDF then
    match rest with
    | b :: _ => if isTail b then .character (joinTwo a b) 2 else .malformed 1
    | [] => .malformed 1
  else if 0xE0 ≤ a && a ≤ 0xEF then
    match rest with
    | b :: c :: _ =>
      if !opensThree a b then .malformed 1
      else if isTail c then .character (joinThree a b c) 3 else .malformed 2
    | [b] => if opensThree a b then .malformed 2 else .malformed 1
    | [] => .malformed 1
  else if 0xF0 ≤ a && a ≤ 0xF4 then
    match rest with
    | b :: c :: d :: _ =>
      if !opensFour a b then .malformed 1
      else if !isTail c then .malformed 2
      else if isTail d then .character (joinFour a b c d) 4 else .malformed 3
    | [b, c] =>
      if !opensFour a b then .malformed 1 else if isTail c then .malformed 3 else .malformed 2
    | [b] => if opensFour a b then .malformed 2 else .malformed 1
    | [] => .malformed 1
  else .malformed 1

/-- Reads any octets; each malformed stretch becomes the replacement character. -/
def decodeLossy (bytes : List UInt8) : List Char :=
  match bytes with
  | [] => []
  | a :: rest =>
    match head a rest with
    | .character c n => c :: decodeLossy (rest.drop (n - 1))
    | .malformed n => Char.ofNat 0xFFFD :: decodeLossy (rest.drop (n - 1))
termination_by bytes.length
decreasing_by all_goals simp only [List.length_cons, List.length_drop]; omega

/-- The characters before the first malformed stretch. -/
def wellFormedStart (bytes : List UInt8) : List Char :=
  match bytes with
  | [] => []
  | a :: rest =>
    match head a rest with
    | .character c n => c :: wellFormedStart (rest.drop (n - 1))
    | .malformed _ => []
termination_by bytes.length
decreasing_by all_goals simp only [List.length_cons, List.length_drop]; omega

end TelemetryRelay.Utf8

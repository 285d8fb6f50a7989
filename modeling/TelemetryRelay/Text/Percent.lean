import TelemetryRelay.Text.Utf8

/-!
# Percent-encoding

Octets that may not stand for themselves are written as `%` and two hexadecimal digits. `encode`
takes the set of octets that may; `decode` reads every text, and leaves a `%` that no two digits
follow as it is.
-/

namespace TelemetryRelay.Percent

/-- The digit of a number below sixteen, in upper case. -/
def hexDigit (n : Nat) : Char := if n < 10 then Char.ofNat (48 + n) else Char.ofNat (55 + n)

/-- The escape of an octet. -/
def escape (b : UInt8) : List Char := ['%', hexDigit (b.toNat / 16), hexDigit (b.toNat % 16)]

/-- An octet as itself where it is an ASCII character that may stand, else as its escape. -/
def encodeOctet (stands : Char → Bool) (b : UInt8) : List Char :=
  let c := Char.ofNat b.toNat
  if b < 0x80 && stands c then [c] else escape b

/-- Encodes the UTF-8 octets of a text. -/
def encodeChars (stands : Char → Bool) (s : String) : List Char :=
  (Utf8.octets s).flatMap (encodeOctet stands)

/-- Encodes a text. -/
def encode (stands : Char → Bool) (s : String) : String := String.ofList (encodeChars stands s)

/-- The characters with no meaning of their own anywhere in a URL. -/
def isUnreserved (c : Char) : Bool :=
  ('a' ≤ c && c ≤ 'z') || ('A' ≤ c && c ≤ 'Z') || ('0' ≤ c && c ≤ '9') ||
    c == '-' || c == '_' || c == '.' || c == '~'

/-- Encodes a text so that it can be the value of a query parameter. -/
def component (s : String) : String := encode isUnreserved s

/-- The value of a hexadecimal digit. -/
def hexValue? (b : UInt8) : Option Nat :=
  if 0x30 ≤ b && b ≤ 0x39 then some (b.toNat - 0x30)
  else if 0x61 ≤ b && b ≤ 0x66 then some (b.toNat - 0x61 + 10)
  else if 0x41 ≤ b && b ≤ 0x46 then some (b.toNat - 0x41 + 10)
  else none

/-- Replaces every complete escape by its octet. -/
def decode : List UInt8 → List UInt8
  | [] => []
  | [a] => [a]
  | [a, b] => [a, b]
  | a :: b :: c :: rest =>
    if a = 0x25 then
      match hexValue? b, hexValue? c with
      | some high, some low => UInt8.ofNat (16 * high + low) :: decode rest
      | _, _ => a :: decode (b :: c :: rest)
    else a :: decode (b :: c :: rest)

end TelemetryRelay.Percent

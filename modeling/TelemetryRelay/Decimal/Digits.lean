/-!
# Decimal digits

Whole numbers as decimal text and back. `digits` writes the shortest digits of a number and
`value` reads digits, so `value (digits n) = n`; `parseInteger` reads a signed numeral into a
bounded range and says why it could not.
-/

namespace TelemetryRelay.Decimal

/-- The character of a digit below ten. -/
def digitChar (d : Nat) : Char := Char.ofNat ('0'.toNat + d)

/-- The value of a decimal digit. -/
def digit? (c : Char) : Option Nat := if '0' ≤ c ∧ c ≤ '9' then some (c.toNat - '0'.toNat) else none

/-- Whether the character is a decimal digit. -/
def isDigit (c : Char) : Bool := (digit? c).isSome

/-- The digits of a number, most significant first and without leading zeros. -/
def digits (n : Nat) : List Char :=
  if n < 10 then [digitChar n] else digits (n / 10) ++ [digitChar (n % 10)]
termination_by n

/-- The number that digits stand for; a character that is no digit counts as zero. -/
def value (cs : List Char) : Nat := cs.foldl (fun n c => 10 * n + (digit? c).getD 0) 0

/-- A whole number with its sign. -/
def ofInt (i : Int) : List Char := if i < 0 then '-' :: digits i.natAbs else digits i.natAbs

/-- Text of a natural number. -/
def natText (n : Nat) : String := String.ofList (digits n)

/-- Text of a whole number. -/
def intText (i : Int) : String := String.ofList (ofInt i)

/-- Why a text is no number of the wanted range. -/
inductive IntegerFault where
  | empty
  | invalidDigit
  | tooLarge
  | tooSmall
deriving DecidableEq, Repr

/-- The sentence for an integer fault. -/
def IntegerFault.message : IntegerFault → String
  | .empty => "cannot parse integer from empty string"
  | .invalidDigit => "invalid digit found in string"
  | .tooLarge => "number too large to fit in target type"
  | .tooSmall => "number too small to fit in target type"

/-- Reads digits onto `acc` from the left; the first character that is no digit, or that takes
the number past `bound`, decides. -/
def accumulate (bound : Nat) (past : IntegerFault) (acc : Nat) : List Char → Except IntegerFault Nat
  | [] => .ok acc
  | c :: cs =>
    match digit? c with
    | none => .error .invalidDigit
    | some d =>
      if 10 * acc + d ≤ bound then accumulate bound past (10 * acc + d) cs else .error past

/-- Reads a numeral between `least` and `greatest`. A plus sign is allowed, a minus sign only
where negative numbers are; a sign needs a digit after it. -/
def parseInteger (least greatest : Int) (s : String) : Except IntegerFault Int :=
  match s.toList with
  | [] => .error .empty
  | '+' :: cs =>
    if cs.isEmpty then .error .invalidDigit
    else (accumulate greatest.toNat .tooLarge 0 cs).map Int.ofNat
  | '-' :: cs =>
    if cs.isEmpty || least ≥ 0 then .error .invalidDigit
    else (accumulate least.natAbs .tooSmall 0 cs).map fun n => -(n : Int)
  | cs => (accumulate greatest.toNat .tooLarge 0 cs).map Int.ofNat

/-- The least 64-bit signed number. -/
def int64Min : Int := -9223372036854775808

/-- The greatest 64-bit signed number. -/
def int64Max : Int := 9223372036854775807

/-- The greatest 64-bit unsigned number. -/
def uint64Max : Nat := 18446744073709551615

/-- Reads a 64-bit signed number. -/
def parseInt64 (s : String) : Except IntegerFault Int := parseInteger int64Min int64Max s

/-- Reads a 64-bit unsigned number. -/
def parseUInt64 (s : String) : Except IntegerFault Nat :=
  (parseInteger 0 uint64Max s).map Int.toNat

end TelemetryRelay.Decimal

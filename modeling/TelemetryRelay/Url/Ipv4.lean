import TelemetryRelay.Decimal.Digits

/-!
# IPv4 addresses

Addresses of 32 bits, read in the forms that hosts of URLs allow: one to four numbers, each in
decimal, octal (after `0`) or hexadecimal (after `0x`), the last one filling the octets that are
left. They are always written as four decimal octets.
-/

namespace TelemetryRelay.Ipv4

/-- The value of a digit in any of the three bases. -/
def digit? (c : Char) : Option Nat :=
  if '0' ≤ c ∧ c ≤ '9' then some (c.toNat - '0'.toNat)
  else if 'a' ≤ c ∧ c ≤ 'f' then some (c.toNat - 'a'.toNat + 10)
  else if 'A' ≤ c ∧ c ≤ 'F' then some (c.toNat - 'A'.toNat + 10)
  else none

/-- Reads digits of a base. -/
def readDigits (base : Nat) (acc : Nat) : List Char → Option Nat
  | [] => some acc
  | c :: cs =>
    match digit? c with
    | some d => if d < base then readDigits base (base * acc + d) cs else none
    | none => none

/-- Reads one number; a bare `0x` is zero. -/
def number? : List Char → Option Nat
  | [] => none
  | '0' :: 'x' :: cs => readDigits 16 0 cs
  | '0' :: 'X' :: cs => readDigits 16 0 cs
  | '0' :: c :: cs => readDigits 8 0 (c :: cs)
  | cs => readDigits 10 0 cs

/-- The text between dots. -/
def splitDots (cs : List Char) : List (List Char) := cs.splitOn '.'

/-- The parts of a dotted text; one dot at the end does not count. -/
def parts (cs : List Char) : List (List Char) :=
  let all := splitDots cs
  if all.length > 1 && all.getLast? == some [] then all.dropLast else all

/-- Whether a host has to be an address because its last part is a number. -/
def endsInNumber (cs : List Char) : Bool :=
  match (parts cs).getLast? with
  | some last => (!last.isEmpty && last.all Decimal.isDigit) || (number? last).isSome
  | none => false

/-- The address of octets that were given one by one and a number for those that are left. -/
def assemble (leading : List Nat) (last : Nat) : Option Nat :=
  let room := Nat.pow 256 (4 - leading.length)
  if leading.all (· ≤ 255) && last < room then
    some (leading.foldl (fun n octet => 256 * n + octet) 0 * room + last)
  else none

/-- Reads an address. -/
def parse? (cs : List Char) : Option Nat :=
  let numbers := (parts cs).map number?
  if numbers.length > 4 then none
  else
    match numbers.mapM id with
    | some ns => (ns.getLast?).bind (assemble ns.dropLast)
    | none => none

/-- The four octets of an address, in decimal and with dots between. -/
def text (address : Nat) : String :=
  ".".intercalate <|
    [24, 16, 8, 0].map fun shift => Decimal.natText (address / Nat.pow 2 shift % 256)

end TelemetryRelay.Ipv4

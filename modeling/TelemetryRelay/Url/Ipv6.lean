import TelemetryRelay.Url.Ipv4

/-!
# IPv6 addresses

Eight pieces of 16 bits. In text, `::` stands for one run of zero pieces, and the last two pieces
may be an IPv4 address. An address is written with its longest run of zeros compressed, the first
of several, if it has at least two pieces.
-/

namespace TelemetryRelay.Ipv6

/-- One step of the scan: what the pieces before this point were, and where the compressed run
stands among them. -/
structure Scan where
  pieces : List Nat
  compress : Option Nat

/-- The leading hexadecimal digits, four at most. -/
def hexDigits (cs : List Char) : List Char := (cs.take 4).takeWhile fun c => (Ipv4.digit? c).isSome

/-- An octet of the embedded address: one to three digits without a leading zero, up to 255. -/
def octet? (cs : List Char) : Option (Nat × List Char) :=
  let ds := cs.takeWhile Decimal.isDigit
  let n := Decimal.value ds
  if ds.isEmpty || (ds.length > 1 && ds.head? == some '0') || n > 255 then none
  else some (n, cs.drop ds.length)

/-- Reads four octets with dots between, up to the end of the text. -/
def embedded? (cs : List Char) : Option (Nat × Nat) :=
  match octet? cs with
  | some (a, '.' :: cs) =>
    match octet? cs with
    | some (b, '.' :: cs) =>
      match octet? cs with
      | some (c, '.' :: cs) =>
        match octet? cs with
        | some (d, []) => some (256 * a + b, 256 * c + d)
        | _ => none
      | _ => none
    | _ => none
  | _ => none

/-- Reads pieces up to the end of the text. -/
def scan : Nat → Scan → List Char → Option Scan
  | 0, _, _ => none
  | _ + 1, s, [] => some s
  | fuel + 1, s, c :: rest =>
    if s.pieces.length = 8 then none
    else if c = ':' then
      if s.compress.isSome then none
      else scan fuel { s with compress := some s.pieces.length } rest
    else
      let ds := hexDigits (c :: rest)
      match (c :: rest).drop ds.length with
      | '.' :: _ =>
        if ds.isEmpty || s.pieces.length > 6 then none
        else
          (embedded? (c :: rest)).map fun (high, low) =>
            { s with pieces := s.pieces ++ [high, low] }
      | ':' :: [] => none
      | ':' :: more =>
        scan fuel { s with pieces := s.pieces ++ [(Ipv4.readDigits 16 0 ds).getD 0] } more
      | [] => some { s with pieces := s.pieces ++ [(Ipv4.readDigits 16 0 ds).getD 0] }
      | _ => none

/-- The eight pieces of a scan: the compressed run is filled with zeros. -/
def Scan.expand (s : Scan) : Option (List Nat) :=
  match s.compress with
  | none => if s.pieces.length = 8 then some s.pieces else none
  | some k =>
    if s.pieces.length = 8 then none
    else some (s.pieces.take k ++ List.replicate (8 - s.pieces.length) 0 ++ s.pieces.drop k)

/-- Reads an address; a colon at its start has to be doubled. -/
def parse? (cs : List Char) : Option (List Nat) :=
  match cs with
  | ':' :: ':' :: rest => (scan (rest.length + 1) ⟨[], some 0⟩ rest).bind Scan.expand
  | ':' :: _ => none
  | _ => (scan (cs.length + 1) ⟨[], none⟩ cs).bind Scan.expand

/-- The digits of a piece, in lower case. -/
def hexText (n : Nat) : List Char :=
  let digit (d : Nat) : Char := if d < 10 then Char.ofNat (48 + d) else Char.ofNat (87 + d)
  if n < 16 then [digit n] else hexText (n / 16) ++ [digit (n % 16)]
termination_by n

/-- The number of zero pieces from position `i` on. -/
def zerosFrom (pieces : List Nat) (i : Nat) : Nat := ((pieces.drop i).takeWhile (· == 0)).length

/-- Start and length of the first longest run of zeros. -/
def longestZeros (pieces : List Nat) : Nat × Nat :=
  (List.range pieces.length).foldl
    (fun best i => if zerosFrom pieces i > best.2 then (i, zerosFrom pieces i) else best) (0, 0)

/-- Pieces with colons between. -/
def joined (pieces : List Nat) : List Char :=
  (pieces.map hexText).intersperse [':'] |>.flatten

/-- The text of an address. -/
def text (pieces : List Nat) : String :=
  let (start, length) := longestZeros pieces
  String.ofList (
    if length ≥ 2 then
      joined (pieces.take start) ++ ':' :: ':' :: joined (pieces.drop (start + length))
    else joined pieces)

end TelemetryRelay.Ipv6

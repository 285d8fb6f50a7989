import TelemetryRelay.Decimal.Shortest

/-!
# Text of floating-point values

One function writes a double; a `FloatStyle` holds the decisions of a format. Documents switch to
an exponent for very large and very small values and keep `.0` on whole ones; messages and line
protocol never use an exponent and drop it.
-/

namespace TelemetryRelay.Decimal

/-- The decisions of a format for floating-point values. -/
structure FloatStyle where
  /-- Powers of ten of the first digit for which the value is written without exponent. -/
  positional : Int → Bool
  /-- Whether a whole number written without exponent ends in `.0`. -/
  keepsPoint : Bool

/-- Documents write from `0.00001` up to below `10^16` without exponent, and a point always. -/
def documentStyle : FloatStyle := ⟨fun p => decide (-5 ≤ p ∧ p ≤ 15), true⟩

/-- Messages never use an exponent, and write whole numbers without a point. -/
def messageStyle : FloatStyle := ⟨fun _ => true, false⟩

/-- The digits `cs` times `10^k`, without exponent. -/
def positionalText (cs : List Char) (k : Int) (keepsPoint : Bool) : List Char :=
  if 0 ≤ k then
    cs ++ List.replicate k.toNat '0' ++ (if keepsPoint then ['.', '0'] else [])
  else
    let places := (-k).toNat
    if cs.length ≤ places then
      '0' :: '.' :: List.replicate (places - cs.length) '0' ++ cs
    else cs.take (cs.length - places) ++ '.' :: cs.drop (cs.length - places)

/-- The digits `cs` with the point after the first and the power `p` of ten of that digit. -/
def exponentText (cs : List Char) (p : Int) : List Char :=
  let mantissa := match cs with
    | [] => []
    | [d] => [d]
    | d :: ds => d :: '.' :: ds
  mantissa ++ 'e' :: (if p < 0 then '-' else '+') :: digits p.natAbs

/-- A magnitude in a style. -/
def FloatStyle.magnitude (style : FloatStyle) (n : Numeral) : List Char :=
  let cs := digits n.coefficient
  let p := n.exponent + (cs.length - 1 : Nat)
  if style.positional p then positionalText cs n.exponent style.keepsPoint else exponentText cs p

/-- A double in a style. -/
def FloatStyle.chars (style : FloatStyle) (x : Float) : List Char :=
  match Binary.ofFloat x with
  | .nan => ['N', 'a', 'N']
  | .infinite negative => if negative then ['-', 'i', 'n', 'f'] else ['i', 'n', 'f']
  | .finite negative m q =>
    (if negative then ['-'] else []) ++ style.magnitude (shortest m q)

/-- A double as documents and answers write it. -/
def documentText (x : Float) : String := String.ofList (documentStyle.chars x)

/-- A double as messages and line protocol write it. -/
def messageText (x : Float) : String := String.ofList (messageStyle.chars x)

/-- Whether the double is neither infinite nor no number. -/
def isFinite (x : Float) : Bool :=
  match Binary.ofFloat x with
  | .finite .. => true
  | _ => false

end TelemetryRelay.Decimal

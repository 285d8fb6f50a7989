import TelemetryRelay.Decimal.Digits
import TelemetryRelay.Text.Percent

/-!
# Query strings

The query of a request as a form, and the three parameters of a history request in it. The first
bad field decides: a field that comes twice, or a number that cannot be read.
-/

namespace TelemetryRelay.Http

/-- Decodes a name or a value of a form. -/
def decodeFormText (cs : List Char) : String :=
  let octets := Utf8.octets (String.ofList (cs.map fun c => if c = '+' then ' ' else c))
  String.ofList (Utf8.decodeLossy (Percent.decode octets))

/-- The fields of a form: pieces between `&`, each cut at its first `=`; empty pieces do not
count. -/
def formFields (query : List Char) : List (String × String) :=
  ((query.splitOn '&').filter (!·.isEmpty)).map fun piece =>
    (decodeFormText (piece.takeWhile (· ≠ '=')),
      decodeFormText ((piece.dropWhile (· ≠ '=')).drop 1))

/-- Why a query string was refused. -/
inductive QueryFault where
  | integer (fault : Decimal.IntegerFault)
  | duplicate (field : String)
deriving DecidableEq, Repr

/-- The sentence for a query fault. -/
def QueryFault.message : QueryFault → String
  | .integer fault => fault.message
  | .duplicate field => "duplicate field \x60" ++ field ++ "\x60"

/-- The parameters of a history request. -/
structure HistoryParameters where
  start : Option Int := none
  finish : Option Int := none
  maxPoints : Option Nat := none
deriving DecidableEq, Repr

/-- Reads a number that was not there before. -/
def once {β : Type} (field : String) (previous : Option β)
    (read : String → Except Decimal.IntegerFault β) (value : String) :
    Except QueryFault (Option β) :=
  if previous.isSome then .error (.duplicate field)
  else
    match read value with
    | .ok b => .ok (some b)
    | .error fault => .error (.integer fault)

/-- Takes one field of the form; fields of other names do not matter. -/
def HistoryParameters.visit (p : HistoryParameters) (field : String × String) :
    Except QueryFault HistoryParameters :=
  match field.1 with
  | "start" => return { p with start := ← once "start" p.start Decimal.parseInt64 field.2 }
  | "end" => return { p with finish := ← once "end" p.finish Decimal.parseInt64 field.2 }
  | "max_points" =>
    return { p with maxPoints := ← once "max_points" p.maxPoints Decimal.parseUInt64 field.2 }
  | _ => return p

/-- The parameters in a query string. -/
def HistoryParameters.ofQuery (query : List Char) : Except QueryFault HistoryParameters :=
  (formFields query).foldlM HistoryParameters.visit {}

end TelemetryRelay.Http

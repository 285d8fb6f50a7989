import TelemetryRelay.Archive.Downsample
import TelemetryRelay.Dictionary.Basic

/-!
# Catalog

What the server offers to read: its dictionaries, and the archive once one is attached. A history
request is checked (`prepare`) before the archive is asked, and the answer is downsampled
(`complete`). The archive is asked through an operation of the caller's, so the same definitions
hold for every kind of archive.
-/

namespace TelemetryRelay

/-- Why a read was refused. -/
inductive CatalogError where
  | invalidRange (window : Window)
  | unknownDictionary (key : String)
  | unknownMeasurement (dictionary measurement : String)
  | historyUnavailable
  | history (reason : String)
deriving DecidableEq, Repr

/-- The sentence for a catalog error. -/
def CatalogError.message : CatalogError → String
  | .invalidRange window =>
    "invalid time range: start " ++ Decimal.intText window.start ++ " is after end " ++
      Decimal.intText window.finish
  | .unknownDictionary key => "unknown dictionary '" ++ key ++ "'"
  | .unknownMeasurement dictionary measurement =>
    "dictionary '" ++ dictionary ++ "' has no measurement '" ++ measurement ++ "'"
  | .historyUnavailable => "history store is not connected"
  | .history reason => "history query failed: " ++ reason

/-- A request for archived samples. -/
structure HistoryRequest where
  key : String
  measurement : String
  window : Window
  maxPoints : Option Nat
deriving DecidableEq, Repr

/-- The dictionaries of a server, and its archive, of which `α` is a name. -/
structure Catalog (α : Type) where
  dictionaries : List Dictionary
  archive : Option α := none

namespace Catalog

variable {α : Type}

/-- Attaches an archive. The first one stays. -/
def attach (c : Catalog α) (archive : α) : Catalog α :=
  { c with archive := some (c.archive.getD archive) }

/-- The first dictionary of a key. -/
def dictionary? (c : Catalog α) (key : String) : Option Dictionary :=
  c.dictionaries.find? (·.key == key)

/-- **The checks before the archive is asked**: the window, the dictionary, the measurement, and
that there is an archive. -/
def prepare (c : Catalog α) (request : HistoryRequest) : Except CatalogError α :=
  if request.window.finish < request.window.start then .error (.invalidRange request.window)
  else
    match c.dictionary? request.key with
    | none => .error (.unknownDictionary request.key)
    | some d =>
      match d.find? request.measurement with
      | none => .error (.unknownMeasurement request.key request.measurement)
      | some _ =>
        match c.archive with
        | none => .error .historyUnavailable
        | some archive => .ok archive

/-- The answer of the archive, cut down to the wanted number of points. -/
def complete (maxPoints : Option Nat) :
    Except String (List Point) → Except CatalogError (List Point)
  | .error reason => .error (.history reason)
  | .ok points => .ok (downsample (maxPoints.getD 0) points)

/-- **Reads archived samples**, asking the archive once if the checks pass. -/
def history {m : Type → Type} [Monad m]
    (query : α → String → String → Window → m (Except String (List Point))) (c : Catalog α)
    (request : HistoryRequest) : m (Except CatalogError (List Point)) :=
  match c.prepare request with
  | .error e => pure (.error e)
  | .ok archive => do
    return complete request.maxPoints
      (← query archive request.key request.measurement request.window)

end Catalog

end TelemetryRelay

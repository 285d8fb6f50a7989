import TelemetryRelay.Catalog.Basic
import TelemetryRelay.Dictionary.Document
import TelemetryRelay.Http.Form
import TelemetryRelay.Http.Route

/-!
# Answers to HTTP requests

The read-only surface of the server: a health check, the dictionaries, and archived samples. Only
`GET` is answered, and `HEAD` as `GET` without the body.
-/

namespace TelemetryRelay.Http

/-- A request. -/
structure Request where
  method : String
  target : List Char
deriving DecidableEq, Repr

/-- An answer, with the headers that differ between answers. -/
structure Response where
  status : Nat
  contentType : Option String := none
  allow : Option String := none
  body : String := ""
deriving DecidableEq, Repr

/-- An answer in plain text. -/
def Response.plain (status : Nat) (body : String) : Response :=
  { status, contentType := some "text/plain; charset=utf-8", body }

/-- An answer that is a document. -/
def Response.document (j : Json) : Response :=
  { status := 200, contentType := some "application/json", body := j.compact }

/-- The answer to a path that is not known. -/
def Response.notFound : Response := { status := 404 }

/-- The answer to a method that is not offered. -/
def Response.methodNotAllowed : Response := { status := 405, allow := some "GET,HEAD" }

/-- The status of a catalog error. -/
def statusOf : CatalogError → Nat
  | .invalidRange _ => 400
  | .unknownDictionary _ => 404
  | .unknownMeasurement _ _ => 404
  | .historyUnavailable => 503
  | .history _ => 502

/-- The answer to a refused read. -/
def Response.refused (e : CatalogError) : Response := .plain (statusOf e) e.message

/-- The answer to a parameter of the path that is not UTF-8. -/
def Response.badParameter (name : String) : Response :=
  .plain 400 ("Invalid URL: Invalid UTF-8 in \x60" ++ name ++ "\x60")

/-- The answer to a bad query string. -/
def Response.badQuery (fault : QueryFault) : Response :=
  .plain 400 ("Failed to deserialize query string: " ++ fault.message)

/-- How far back a window reaches that is given without a start: one hour. -/
def defaultSpan : Int := 3600000

/-- **The window of a request.** Without an end it ends now, and without a start it begins an hour
before its end, or at the least time there is. -/
def windowOf (now : Int) (p : HistoryParameters) : Window :=
  let finish := p.finish.getD now
  ⟨p.start.getD (max Decimal.int64Min (finish - defaultSpan)), finish⟩

variable {α : Type}

/-- The list of dictionaries. -/
def listDictionaries (c : Catalog α) : Response :=
  .document (.array (c.dictionaries.map Dictionary.summaryJson))

/-- One dictionary. -/
def showDictionary (c : Catalog α) (key : List Char) : Response :=
  match decodeParameter? key with
  | none => .badParameter "key"
  | some key =>
    match c.dictionary? key with
    | some d => .document d.toJson
    | none => .refused (.unknownDictionary key)

/-- The answer that an outcome of a history request gets. -/
def showPoints : Except CatalogError (List Point) → Response
  | .ok points => .document (.array (points.map Point.toJson))
  | .error e => .refused e

/-- Archived samples. The path is decoded before the query string, and both before the catalog is
asked. -/
def showHistory {m : Type → Type} [Monad m]
    (query : α → String → String → Window → m (Except String (List Point))) (now : Int)
    (c : Catalog α) (key measurement : List Char) (queryText : List Char) : m Response :=
  match decodeParameter? key, decodeParameter? measurement with
  | none, _ => pure (.badParameter "key")
  | _, none => pure (.badParameter "measurement")
  | some key, some measurement =>
    match HistoryParameters.ofQuery queryText with
    | .error fault => pure (.badQuery fault)
    | .ok p => do
      return showPoints (← c.history query ⟨key, measurement, windowOf now p, p.maxPoints⟩)

/-- The answer of a route to `GET`. -/
def get {m : Type → Type} [Monad m]
    (query : α → String → String → Window → m (Except String (List Point))) (now : Int)
    (c : Catalog α) (target : List Char) : Route → m Response
  | .health => pure (.plain 200 "ok")
  | .dictionaries => pure (listDictionaries c)
  | .dictionary key => pure (showDictionary c key)
  | .history key measurement => showHistory query now c key measurement (queryOf target)

/-- **Answers a request** at the time `now`. -/
def respond {m : Type → Type} [Monad m]
    (query : α → String → String → Window → m (Except String (List Point))) (now : Int)
    (c : Catalog α) (request : Request) : m Response :=
  match Route.ofPath? (pathOf request.target) with
  | none => pure .notFound
  | some route =>
    if request.method = "GET" then get query now c request.target route
    else if request.method = "HEAD" then do
      return { (← get query now c request.target route) with body := "" }
    else pure .methodNotAllowed

end TelemetryRelay.Http

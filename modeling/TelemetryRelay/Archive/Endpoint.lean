import TelemetryRelay.Archive.LineProtocol
import TelemetryRelay.Archive.QueryText
import TelemetryRelay.Text.Percent
import TelemetryRelay.Url.Parser

/-!
# Requests to the archive

The three requests that an archive is sent: one that asks whether it is there, one that stores a
sample, and one that reads samples. Their URLs are texts behind the base URL, in which the database
and the query are percent-encoded.
-/

namespace TelemetryRelay

/-- A request to the archive. -/
structure ArchiveRequest where
  method : String
  url : String
  /-- The kind of answer that is asked for, if not any. -/
  accept : Option String := none
  body : String := ""
deriving DecidableEq, Repr

/-- What the request is addressed to on its host, in the form in which it is sent. -/
def ArchiveRequest.target? (r : ArchiveRequest) : Option String :=
  match Url.parse r.url with
  | .ok url => some (url.path.text ++ Url.marked "?" url.query)
  | .error _ => none

/-- Where an archive is reached, and its database there. -/
structure ArchiveEndpoint where
  base : String
  db : String
deriving DecidableEq, Repr

namespace ArchiveEndpoint

/-- The text without the slashes at its end. -/
def withoutSlashes (s : String) : String :=
  String.ofList ((s.toList.reverse.dropWhile (· == '/')).reverse)

/-- The archive at a base URL. -/
def atUrl (url db : String) : ArchiveEndpoint := ⟨withoutSlashes url, db⟩

/-- The URL that is asked whether the archive is there. -/
def pingUrl (e : ArchiveEndpoint) : String := e.base ++ "/ping"

/-- The URL that samples are written to. -/
def writeUrl (e : ArchiveEndpoint) : String :=
  e.base ++ "/write?db=" ++ Percent.component e.db ++ "&precision=ms"

/-- The URL of a query. -/
def queryUrl (e : ArchiveEndpoint) (query : String) : String :=
  e.base ++ "/query?db=" ++ Percent.component e.db ++ "&epoch=ms&q=" ++ Percent.component query

/-- Asks whether the archive is there. -/
def ping (e : ArchiveEndpoint) : ArchiveRequest := { method := "GET", url := e.pingUrl }

/-- Stores a sample. -/
def write (e : ArchiveEndpoint) (key measurement : String) (point : Point) : ArchiveRequest where
  method := "POST"
  url := e.writeUrl
  body := LineProtocol.line key measurement point.time point.value

/-- Reads the samples of a measurement in a window. -/
def query (e : ArchiveEndpoint) (key measurement : String) (window : Window) : ArchiveRequest where
  method := "GET"
  url := e.queryUrl (QueryText.history key measurement window)
  accept := some "application/json"

end ArchiveEndpoint

end TelemetryRelay

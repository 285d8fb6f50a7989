import TelemetryRelay.Text.Characters
import TelemetryRelay.Url.Host

/-!
# URLs

The parts of a URL and its text. User name, password, path, query and fragment are kept in the
escaped form in which they are written; a port that is the scheme's default is not kept.
-/

namespace TelemetryRelay

/-- A path: one text, or segments that are each written behind a slash. -/
inductive UrlPath where
  | whole (text : String)
  | segments (list : List String)
deriving DecidableEq, Repr

/-- The text of a path. -/
def UrlPath.text : UrlPath → String
  | .whole text => text
  | .segments list => String.join (list.map ("/" ++ ·))

/-- A URL. -/
structure Url where
  scheme : String
  username : String := ""
  password : String := ""
  host : Option Host := none
  port : Option Nat := none
  path : UrlPath := .segments []
  query : Option String := none
  fragment : Option String := none
deriving DecidableEq, Repr

namespace Url

/-- The port that a scheme implies. -/
def defaultPort? : String → Option Nat
  | "http" => some 80
  | "ws" => some 80
  | "https" => some 443
  | "wss" => some 443
  | "ftp" => some 21
  | _ => none

/-- The user name and the password, as they stand before the host. -/
def credentials (u : Url) : String :=
  if u.username.isEmpty && u.password.isEmpty then ""
  else if u.password.isEmpty then u.username ++ "@"
  else u.username ++ ":" ++ u.password ++ "@"

/-- What stands behind the scheme's colon up to the path. -/
def authority (u : Url) : String :=
  match u.host with
  | none => ""
  | some host =>
    "//" ++ u.credentials ++ host.text ++
      (match u.port with
        | some port => ":" ++ Decimal.natText port
        | none => "")

/-- A mark and what follows it, if that is there. -/
def marked (mark : String) : Option String → String
  | some s => mark ++ s
  | none => ""

/-- The text of a URL. -/
def text (u : Url) : String :=
  u.scheme ++ ":" ++ u.authority ++ u.path.text ++ marked "?" u.query ++ marked "#" u.fragment

/-- The port that is connected to: the one given, or the scheme's. -/
def effectivePort? (u : Url) : Option Nat := u.port.or (defaultPort? u.scheme)

/-- The same URL with another port; the scheme's default is dropped. -/
def withPort (u : Url) (port : Nat) : Url :=
  { u with port := if defaultPort? u.scheme = some port then none else some port }

end Url

end TelemetryRelay

import TelemetryRelay.Text.Percent

/-!
# Routes

The paths that the server answers. A path is compared with the patterns segment by segment as it
was written; parameters are percent-decoded afterwards. The last segment of a path is never
empty.
-/

namespace TelemetryRelay.Http

/-- A known path; parameters are still encoded. -/
inductive Route where
  | health
  | dictionaries
  | dictionary (key : List Char)
  | history (key measurement : List Char)
deriving DecidableEq, Repr

/-- A target without its scheme and authority: those of an absolute URL are dropped. -/
def localPart (target : List Char) : List Char :=
  match target with
  | '/' :: _ => target
  | _ =>
    match target.dropWhile (· ≠ ':') with
    | ':' :: '/' :: '/' :: rest =>
      let path := rest.dropWhile fun c => c ≠ '/' ∧ c ≠ '?' ∧ c ≠ '#'
      match path with
      | '/' :: _ => path
      | _ => '/' :: path
    | _ => target

/-- The path of a target. -/
def pathOf (target : List Char) : List Char :=
  (localPart target).takeWhile fun c => c ≠ '?' ∧ c ≠ '#'

/-- The query of a target, without its mark. -/
def queryOf (target : List Char) : List Char :=
  match (localPart target).dropWhile fun c => c ≠ '?' ∧ c ≠ '#' with
  | '?' :: query => query.takeWhile (· ≠ '#')
  | _ => []

/-- The route of a path. -/
def Route.ofPath? (path : List Char) : Option Route :=
  match (path.splitOn '/').map String.ofList with
  | ["", "healthz"] => some .health
  | ["", "dictionaries"] => some .dictionaries
  | ["", "dictionaries", key] => if key.isEmpty then none else some (.dictionary key.toList)
  | ["", "history", key, measurement] =>
    if measurement.isEmpty then none else some (.history key.toList measurement.toList)
  | _ => none

/-- Decodes a parameter of a path. -/
def decodeParameter? (cs : List Char) : Option String :=
  Utf8.decode? (Percent.decode (Utf8.octets (String.ofList cs)))

end TelemetryRelay.Http

import TelemetryRelay.Text.Characters

/-!
# Log levels and filters

How important a log line is, and which lines are wanted. A filter is a list of directives joined by
commas; a directive is a level, a target, or both joined by an equals sign. Of the directives whose
target is the start of a line's target, the one with the longest target decides.
-/

namespace TelemetryRelay.Log

/-- The importance of a line. -/
inductive Level where
  | error
  | warn
  | info
  | debug
  | trace
deriving DecidableEq, Repr

/-- The name of a level on a line. -/
def Level.label : Level → String
  | .error => "ERROR"
  | .warn => "WARN"
  | .info => "INFO"
  | .debug => "DEBUG"
  | .trace => "TRACE"

/-- How much a level lets through: every level up to this number. -/
def Level.verbosity : Level → Nat
  | .error => 1
  | .warn => 2
  | .info => 3
  | .debug => 4
  | .trace => 5

/-- What a directive says about the lines of a target and of all targets that begin like it. -/
structure Directive where
  target : String
  /-- The greatest verbosity that is let through; zero lets nothing through. -/
  greatest : Nat
deriving DecidableEq, Repr

/-- Reads how much is let through: a name in any case, or a number. -/
def greatest? (s : String) : Option Nat :=
  match Text.lowerAscii s with
  | "off" => some 0
  | "error" => some 1
  | "warn" => some 2
  | "info" => some 3
  | "debug" => some 4
  | "trace" => some 5
  | "0" => some 0
  | "1" => some 1
  | "2" => some 2
  | "3" => some 3
  | "4" => some 4
  | "5" => some 5
  | _ => none

/-- Reads a directive. A target alone lets everything through, and so does an empty level. -/
def Directive.parse? (s : String) : Option Directive :=
  match (Text.trim s).splitOn "=" with
  | [single] =>
    match greatest? single with
    | some n => some ⟨"", n⟩
    | none => if single.isEmpty then none else some ⟨single, 5⟩
  | [target, level] =>
    if target.isEmpty then none
    else if level.isEmpty then some ⟨target, 5⟩
    else (greatest? level).map (⟨target, ·⟩)
  | _ => none

/-- A filter. -/
abbrev Filter := List Directive

namespace Filter

/-- The filter that lets lines through down to a level. -/
def atLevel (level : Level) : Filter := [⟨"", level.verbosity⟩]

/-- Reads a filter. Without any directive it lets only errors through. -/
def parse? (s : String) : Option Filter := do
  let directives ← ((s.splitOn ",").filter (· != "")).mapM Directive.parse?
  return if directives.isEmpty then atLevel .error else directives

/-- The directive that decides about a target: the longest that fits, of equals the last. -/
def deciding? (filter : Filter) (target : String) : Option Directive :=
  (filter.filter fun d => d.target.isPrefixOf target).foldl
    (fun best d =>
      match best with
      | some b => if d.target.length < b.target.length then best else some d
      | none => some d)
    none

/-- Whether a line of this level and target is wanted. -/
def allows (filter : Filter) (target : String) (level : Level) : Bool :=
  (filter.deciding? target).any fun d => level.verbosity ≤ d.greatest

end Filter

end TelemetryRelay.Log

import TelemetryRelay.Configuration.DictionaryFile
import TelemetryRelay.Configuration.Environment
import TelemetryRelay.Log.Report
import TelemetryRelay.Server.Lifecycle

/-!
# The program

A run from the command line: settings and dictionaries are read, the dictionaries are reported, the
configuration is checked, the server is started, and on an interrupt it is stopped. A run that
cannot start ends with one line on the error stream and the status one.
-/

namespace TelemetryRelay

/-- Why a run ended before the server was up. -/
inductive ProgramFault where
  | configuration (e : ConfigError)
  | start (e : StartError)

/-- The line on the error stream. -/
def ProgramFault.line : ProgramFault → String
  | .configuration e => "Error: " ++ e.message
  | .start e => e.message

/-- The exit status of a run that could not start. -/
def ProgramFault.status : Nat := 1

namespace Program

/-- The filter of the log, from its variable. -/
def logFilter (env : Environment) : Log.Filter :=
  (((env.find? (·.1 == "RUST_LOG")).bind fun v => Log.Filter.parse? v.2)).getD
    (.atLevel .info)

/-- The settings and the dictionaries that they name; `read` gives the text of the file at a
path. -/
def configuration (env : Environment) (read : String → Option String) :
    Except ConfigError (Settings × List Dictionary) := do
  match Settings.read? env with
  | none => throw .unreadable
  | some settings => return (settings, ← Dictionary.load read settings.dictionariesPath)

/-- **Prepares a run**: the lines to print, and the server or what keeps it from being made. -/
def prepare (env : Environment) (read : String → Option String) :
    List String × Except ConfigError Server :=
  match configuration env read with
  | .error e => ([], .error e)
  | .ok (settings, dictionaries) =>
    (Log.shown (logFilter env) (Log.report dictionaries),
      Server.create (settings.serverConfig dictionaries) ⟨Registry.defaultCapacity, []⟩)

/-- **Starts the server of a run.** Nobody gives the start up, and no message comes early. -/
def launch (s : Server) (outcome : Call → Outcome) : Except StartError Server :=
  match s.start outcome none [] with
  | (.failed e, _, _) => .error e
  | (_, s, _) => .ok s

/-- The line that is printed once the server listens. -/
def listeningLine (s : Server) : String := "Server listening in " ++ Decimal.natText s.config.port

/-- What is logged once the server has been stopped. -/
def shutdownLine (s : Server) : Log.Line := ⟨.info, "Shutdown complete", [("state", s.phase.label)]⟩

end Program

end TelemetryRelay

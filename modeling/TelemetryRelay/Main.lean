import TelemetryRelay.Program
import TelemetryRelay.Server.Network
import TelemetryRelay.Text.Utf8

/-!
# The command

Reads the environment and the dictionary file, and runs the program. No transport is linked into
this command, so every connection that it tries finds the network unreachable.
-/

namespace TelemetryRelay

/-- The variables that the program looks at. -/
def Settings.variableNames : List String :=
  ["HOST", "PORT", "WSS_PORT", "MSGFLO_BROKER", "INFLUX_HOST", "INFLUX_DB", "CONNECT_TIMEOUT_MS",
    "SHUTDOWN_TIMEOUT_MS", "DICTIONARIES_CONFIG", "RUST_LOG"]

/-- The variables that are set. -/
def readEnvironment : IO Environment :=
  Settings.variableNames.filterMapM fun name => do
    return (← IO.getEnv name).map (name, ·)

/-- The text of a file, if it can be read. -/
def readText? (path : String) : IO (Option String) := do
  try
    let bytes ← IO.FS.readBinFile path
    return some (String.ofList (Utf8.decodeLossy bytes.data.toList))
  catch _ => return none

/-- The files at which a path may point. -/
def readCandidates (path : String) : IO (List (String × String)) :=
  (DictionaryFile.candidates path).filterMapM fun candidate => do
    return (← readText? candidate).map (candidate, ·)

/-- Ends a run that could not start. -/
def giveUp (fault : ProgramFault) : IO UInt32 := do
  IO.eprintln fault.line
  return UInt32.ofNat ProgramFault.status

end TelemetryRelay

open TelemetryRelay in
/-- Runs the program. -/
def main : IO UInt32 := do
  let env ← readEnvironment
  let path := ((Settings.read? env).map (·.dictionariesPath)).getD ""
  let files ← readCandidates path
  let (lines, prepared) := Program.prepare env fun path => (files.lookup path)
  lines.forM fun line => IO.println line
  match prepared with
  | .error e => giveUp (.configuration e)
  | .ok server =>
    match Program.launch server Network.offline.outcome with
    | .error e => giveUp (.start e)
    | .ok server =>
      IO.println (Program.listeningLine server)
      return 0

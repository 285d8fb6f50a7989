import TelemetryRelay.Configuration.Basic
import TelemetryRelay.Configuration.Scalar

/-!
# Settings from the environment

Every setting has a variable, found without regard to case, and a default. A variable's text is
first read as a truth value, a whole number or a floating-point value, and then turned into what
the setting needs; so a number in a text setting is written anew.
-/

namespace TelemetryRelay

/-- The variables of a process. -/
abbrev Environment := List (String × String)

/-- The text of a variable; of several that differ only in case, the last. -/
def Environment.get? (env : Environment) (name : String) : Option String :=
  (env.reverse.find? fun v => Text.lowerAscii v.1 == name).map (·.2)

/-- What the environment sets. -/
structure Settings where
  host : String
  port : Nat
  wssPort : Nat
  brokerUrl : String
  historyHost : String
  historyDb : String
  connectTimeout : Nat
  shutdownTimeout : Nat
  /-- The dictionary file, with or without its extension. -/
  dictionariesPath : String
deriving DecidableEq, Repr

namespace Settings

/-- A setting that is text. -/
def textOf (env : Environment) (name fallback : String) : String :=
  match env.get? name with
  | some s => (Scalar.ofText s).toText
  | none => fallback

/-- A setting that is a natural number up to `greatest`. -/
def naturalOf? (env : Environment) (name : String) (greatest fallback : Nat) : Option Nat :=
  match env.get? name with
  | some s =>
    match (Scalar.ofText s).toNatural? with
    | some n => if n ≤ greatest then some n else none
    | none => none
  | none => some fallback

/-- The greatest port. -/
def greatestPort : Nat := 65535

/-- Where the dictionary file lies unless something else is said. -/
def defaultDictionariesPath : String := "config/dictionaries"

/-- Reads the settings; none if one of them does not fit. -/
def read? (env : Environment) : Option Settings := do
  let defaults : ServerConfig := {}
  let port ← naturalOf? env "port" greatestPort defaults.port
  let wssPort ← naturalOf? env "wss_port" greatestPort defaults.wssPort
  let connectTimeout ←
    naturalOf? env "connect_timeout_ms" Decimal.uint64Max defaults.connectTimeout
  let shutdownTimeout ←
    naturalOf? env "shutdown_timeout_ms" Decimal.uint64Max defaults.shutdownTimeout
  return {
    host := textOf env "host" defaults.host
    port, wssPort
    brokerUrl := textOf env "msgflo_broker" defaults.brokerUrl
    historyHost := textOf env "influx_host" defaults.history.host
    historyDb := textOf env "influx_db" defaults.history.db
    connectTimeout, shutdownTimeout
    dictionariesPath := textOf env "dictionaries_config" defaultDictionariesPath }

/-- The configuration of a server with these settings. -/
def serverConfig (s : Settings) (dictionaries : List Dictionary) : ServerConfig where
  host := s.host
  port := s.port
  wssPort := s.wssPort
  brokerUrl := s.brokerUrl
  history := ⟨s.historyHost, s.historyDb⟩
  dictionaries := dictionaries
  connectTimeout := s.connectTimeout
  shutdownTimeout := s.shutdownTimeout

end Settings

end TelemetryRelay

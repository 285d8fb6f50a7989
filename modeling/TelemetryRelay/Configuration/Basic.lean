import TelemetryRelay.Decimal.Digits
import TelemetryRelay.Dictionary.Basic
import TelemetryRelay.Url.Basic

/-!
# Server configuration

What a server needs to know: where to listen, where the broker and the archive are, which
dictionaries it serves, and how long it waits for others.
-/

namespace TelemetryRelay

/-- Where samples are archived: a host name, an address or a URL, and a database there. -/
structure HistoryTarget where
  host : String := "localhost"
  db : String := "void"
deriving DecidableEq, Repr

/-- The configuration of a server; timeouts are in milliseconds. -/
structure ServerConfig where
  host : String := "localhost"
  port : Nat := 8080
  wssPort : Nat := 8082
  brokerUrl : String := "mqtt://localhost"
  history : HistoryTarget := {}
  dictionaries : List Dictionary := []
  connectTimeout : Nat := 5000
  shutdownTimeout : Nat := 2000

/-- The setting that an endpoint comes from. -/
inductive EndpointField where
  | host
  | port
  | wssPort
  | broker
  | history
deriving DecidableEq, Repr

/-- The name of a setting. -/
def EndpointField.label : EndpointField → String
  | .host => "host"
  | .port => "port"
  | .wssPort => "wss_port"
  | .broker => "broker"
  | .history => "history"

/-- Why an endpoint was refused. -/
inductive EndpointFault where
  | notHostName
  | zeroPort
  | badUrl (fault : UrlFault)
  | unsupportedScheme (scheme : String)
  | missingHost
deriving DecidableEq, Repr

/-- The sentence for an endpoint fault. -/
def EndpointFault.message : EndpointFault → String
  | .notHostName => "not a valid host name"
  | .zeroPort => "port must be non-zero"
  | .badUrl fault => fault.message
  | .unsupportedScheme scheme => "unsupported scheme '" ++ scheme ++ "'"
  | .missingHost => "missing host"

/-- Why a configuration was refused. -/
inductive ConfigError where
  | duplicateDictionary (key : String)
  | duplicateChannel (channel first second : String)
  | invalidEndpoint (field : EndpointField) (value : String) (fault : EndpointFault)
  | portConflict (port : Nat)
  | dictionary (e : DictionaryError)
  /-- The settings or the dictionary file could not be read. -/
  | unreadable

/-- The sentence for a configuration error. -/
def ConfigError.message : ConfigError → String
  | .duplicateDictionary key => "dictionary key '" ++ key ++ "' is registered more than once"
  | .duplicateChannel channel first second =>
    "channel key '" ++ channel ++ "' is declared by both '" ++ first ++ "' and '" ++ second ++ "'"
  | .invalidEndpoint field value fault =>
    "invalid " ++ field.label ++ " endpoint '" ++ value ++ "': " ++ fault.message
  | .portConflict port => "http port and websocket port are both " ++ Decimal.natText port
  | .dictionary e => e.message
  | .unreadable => "failed to load configuration"

end TelemetryRelay

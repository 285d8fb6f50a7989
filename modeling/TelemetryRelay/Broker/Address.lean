import TelemetryRelay.Configuration.Basic
import TelemetryRelay.Url.Parser

/-!
# Addresses of brokers

The URL of the broker that a configuration names, and the host and the port that a connection to it
is opened to.
-/

namespace TelemetryRelay

/-- The port of a broker that is given without one. -/
def brokerPort : Nat := 1883

/-- The schemes of brokers. -/
def brokerSchemes : List String := ["mqtt", "tcp"]

/-- **The URL of the broker.** -/
def ServerConfig.brokerEndpoint (config : ServerConfig) : Except ConfigError Url :=
  let refuse (fault : EndpointFault) : ConfigError :=
    .invalidEndpoint .broker config.brokerUrl fault
  match Url.parse config.brokerUrl with
  | .error fault => .error (refuse (.badUrl fault))
  | .ok url =>
    if !brokerSchemes.contains url.scheme then .error (refuse (.unsupportedScheme url.scheme))
    else if url.host.isNone then .error (refuse .missingHost)
    else .ok url

namespace Broker

/-- Why a broker has no address. -/
inductive AddressFault where
  | invalidUrl (url : String) (fault : UrlFault)
  | unsupportedScheme (scheme : String)
  | noHost (url : String)
deriving DecidableEq, Repr

/-- The sentence for an address fault. -/
def AddressFault.message : AddressFault → String
  | .invalidUrl url fault => "Invalid broker URL '" ++ url ++ "': " ++ fault.message
  | .unsupportedScheme scheme => "Unsupported broker scheme '" ++ scheme ++ "'"
  | .noHost url => "Broker URL '" ++ url ++ "' has no host"

/-- Host and port of a broker's URL. -/
def address (url : String) : Except AddressFault (String × Nat) :=
  match Url.parse url with
  | .error fault => .error (.invalidUrl url fault)
  | .ok parsed =>
    if !brokerSchemes.contains parsed.scheme then .error (.unsupportedScheme parsed.scheme)
    else
      match parsed.host with
      | none => .error (.noHost url)
      | some host => .ok (host.text, parsed.port.getD brokerPort)

end Broker

end TelemetryRelay

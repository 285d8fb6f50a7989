import TelemetryRelay.Broker.Address

/-!
# Validating configurations

The checks that need no network. `ServerConfig.validate` goes through them in a fixed order and
reports the first that fails. An archive may be given as a bare host name, which stands for `http`
and the archive's own port.
-/

namespace TelemetryRelay

/-- The port of an archive that is given without one. -/
def archivePort : Nat := 8086

/-- Whether the text names a scheme, so that it is a URL and not a bare host. -/
def namesScheme : List Char → Bool
  | [] => false
  | ':' :: '/' :: '/' :: _ => true
  | _ :: rest => namesScheme rest

/-- **The base URL of the archive.** -/
def HistoryTarget.url (target : HistoryTarget) : Except ConfigError Url :=
  let full := namesScheme target.host.toList
  let refuse (fault : EndpointFault) : ConfigError := .invalidEndpoint .history target.host fault
  match Url.parse (if full then target.host else "http://" ++ target.host) with
  | .error fault => .error (refuse (.badUrl fault))
  | .ok url =>
    if url.host.isNone then .error (refuse .missingHost)
    else if url.port.isSome || full then .ok url
    else .ok (url.withPort archivePort)

/-- The first key that occurred before. -/
def firstRepeatedKey (seen : List String) : List String → Option String
  | [] => none
  | key :: rest => if seen.contains key then some key else firstRepeatedKey (key :: seen) rest

/-- A channel key and the key of the dictionary that declares it. -/
structure Declaration where
  channel : String
  dictionary : String
deriving DecidableEq, Repr

namespace ServerConfig

/-- The keys of the dictionaries. -/
def dictionaryKeys (config : ServerConfig) : List String := config.dictionaries.map (·.key)

/-- Every declared channel, dictionary by dictionary. -/
def declarations (config : ServerConfig) : List Declaration :=
  config.dictionaries.flatMap fun d => d.channels.map (⟨·, d.key⟩)

/-- The channel keys that are subscribed to, dictionary by dictionary. -/
def channels (config : ServerConfig) : List String :=
  config.dictionaries.flatMap Dictionary.channels

end ServerConfig

/-- The first declaration whose channel was declared before, behind the one that did. -/
def firstClash (seen : List Declaration) : List Declaration → Option (Declaration × Declaration)
  | [] => none
  | d :: rest =>
    match seen.find? (·.channel == d.channel) with
    | some first => some (first, d)
    | none => firstClash (d :: seen) rest

namespace ServerConfig

/-- Refuses a key that two dictionaries share. -/
def checkKeys (config : ServerConfig) : Except ConfigError Unit :=
  match firstRepeatedKey [] config.dictionaryKeys with
  | some key => .error (.duplicateDictionary key)
  | none => .ok ()

/-- Refuses a channel that is declared twice. -/
def checkChannels (config : ServerConfig) : Except ConfigError Unit :=
  match firstClash [] config.declarations with
  | some (first, second) =>
    .error (.duplicateChannel second.channel first.dictionary second.dictionary)
  | none => .ok ()

/-- Refuses a host that is empty or holds a blank. -/
def checkHost (config : ServerConfig) : Except ConfigError Unit :=
  if Text.isBlankText config.host || Text.hasBlank config.host then
    .error (.invalidEndpoint .host config.host .notHostName)
  else .ok ()

/-- Refuses a port that is zero, and the same port for both listeners. -/
def checkPorts (config : ServerConfig) : Except ConfigError Unit :=
  if config.port = 0 then .error (.invalidEndpoint .port "0" .zeroPort)
  else if config.wssPort = 0 then .error (.invalidEndpoint .wssPort "0" .zeroPort)
  else if config.port = config.wssPort then .error (.portConflict config.port)
  else .ok ()

/-- **Checks a configuration**: dictionary keys, channels, host, ports, broker and archive. -/
def validate (config : ServerConfig) : Except ConfigError Unit := do
  config.checkKeys
  config.checkChannels
  config.checkHost
  config.checkPorts
  let _ ← config.brokerEndpoint
  let _ ← config.history.url
  return ()

end ServerConfig

end TelemetryRelay

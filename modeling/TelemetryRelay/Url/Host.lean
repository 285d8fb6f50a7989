import TelemetryRelay.Url.Domain
import TelemetryRelay.Url.Ipv6

/-!
# Hosts of URLs

The host between the slashes of a URL. Where the scheme is one of the special ones it is a domain
or an address; elsewhere it is any text without the characters that delimit URLs.
-/

namespace TelemetryRelay

/-- Why a URL was refused. -/
inductive UrlFault where
  | emptyHost
  | invalidDomain
  | invalidPort
  | invalidIpv4
  | invalidIpv6
  | invalidHostCharacter
  | relativeWithoutBase
deriving DecidableEq, Repr

/-- The sentence for a URL fault. -/
def UrlFault.message : UrlFault → String
  | .emptyHost => "empty host"
  | .invalidDomain => "invalid international domain name"
  | .invalidPort => "invalid port number"
  | .invalidIpv4 => "invalid IPv4 address"
  | .invalidIpv6 => "invalid IPv6 address"
  | .invalidHostCharacter => "invalid domain character"
  | .relativeWithoutBase => "relative URL without a base"

/-- A host. -/
inductive Host where
  | domain (name : String)
  | ipv4 (address : Nat)
  | ipv6 (pieces : List Nat)
  | opaqueName (name : String)
deriving DecidableEq, Repr

namespace Host

/-- The text of a host. -/
def text : Host → String
  | .domain name => name
  | .ipv4 address => Ipv4.text address
  | .ipv6 pieces => "[" ++ Ipv6.text pieces ++ "]"
  | .opaqueName name => name

/-- Reads an address in brackets, the first of which has been passed. -/
def ofBracketed (cs : List Char) : Except UrlFault Host :=
  if cs.getLast? = some ']' then
    match Ipv6.parse? cs.dropLast with
    | some pieces => .ok (.ipv6 pieces)
    | none => .error .invalidIpv6
  else .error .invalidIpv6

/-- The host of a domain name in ASCII form. -/
def ofAscii (name : List Char) : Except UrlFault Host :=
  if name.isEmpty then .error .emptyHost
  else if Ipv4.endsInNumber name then
    match Ipv4.parse? name with
    | some address => .ok (.ipv4 address)
    | none => .error .invalidIpv4
  else .ok (.domain (String.ofList name))

/-- Reads the host of a special scheme. Its escapes are decoded first. -/
def parseSpecial (cs : List Char) : Except UrlFault Host :=
  match cs with
  | '[' :: rest => ofBracketed rest
  | _ =>
    match Utf8.decode? (Percent.decode (Utf8.octets (String.ofList cs))) with
    | none => .error .invalidDomain
    | some name =>
      match Domain.toAscii? name.toList with
      | none => .error .invalidDomain
      | some ascii => ofAscii ascii

/-- The characters that no host may hold. -/
def isDelimiter (c : Char) : Bool :=
  ['\x00', '\t', '\n', '\r', ' ', '#', '/', ':', '<', '>', '?', '@', '[', '\\', ']', '^',
    '|'].contains c

/-- The characters that stand for themselves in a host that is only text. -/
def isPlain (c : Char) : Bool := 0x20 ≤ c.toNat && c.toNat < 0x7F

/-- Reads the host of another scheme: its text, with controls and characters outside ASCII
escaped. -/
def parseOpaque (cs : List Char) : Except UrlFault Host :=
  match cs with
  | '[' :: rest => ofBracketed rest
  | _ =>
    if cs.any isDelimiter then .error .invalidHostCharacter
    else .ok (.opaqueName (Percent.encode isPlain (String.ofList cs)))

end Host

end TelemetryRelay

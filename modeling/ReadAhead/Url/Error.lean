/-! Why a text is not a URL. -/

namespace ReadAhead

/-- The causes for which a text is refused as a URL. -/
inductive Url.Error
  | emptyHost
  /-- The host is no domain name in the international rules. -/
  | domain
  | port
  | ipv4
  | ipv6
  /-- The host of a scheme with hosts of its own kind has a character that no host has. -/
  | hostCharacter
  /-- There is no scheme, and so only a part of a URL. -/
  | noScheme
  deriving DecidableEq, Repr

def Url.Error.message : Url.Error → String
  | emptyHost => "empty host"
  | domain => "invalid international domain name"
  | port => "invalid port number"
  | ipv4 => "invalid IPv4 address"
  | ipv6 => "invalid IPv6 address"
  | hostCharacter => "invalid domain character"
  | noScheme => "relative URL without a base"

end ReadAhead

/-!
# Why a text is no URL
-/

namespace PolyLex.Url

inductive Fault where
  | emptyHost
  | invalidDomainName
  | invalidPort
  | invalidIpv4
  | invalidIpv6
  | invalidDomainCharacter
  /-- There is no scheme, and no base that would supply one. -/
  | relativeWithoutBase
  /-- A relative URL cannot be resolved against a base without a hierarchy. -/
  | opaqueBase
  deriving Repr, DecidableEq, Inhabited

def Fault.message : Fault → String
  | emptyHost => "empty host"
  | invalidDomainName => "invalid international domain name"
  | invalidPort => "invalid port number"
  | invalidIpv4 => "invalid IPv4 address"
  | invalidIpv6 => "invalid IPv6 address"
  | invalidDomainCharacter => "invalid domain character"
  | relativeWithoutBase => "relative URL without a base"
  | opaqueBase => "relative URL with a cannot-be-a-base base"

end PolyLex.Url

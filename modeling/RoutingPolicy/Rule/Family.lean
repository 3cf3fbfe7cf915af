import RoutingPolicy.Rule.Keyword
import RoutingPolicy.Text.Blank

/-!
# Address families

A multiprotocol rule may begin with `AFI` and a token that names the address family it is for. A
rule applies to a request for some IP versions when its family accepts one of them.
-/

namespace RoutingPolicy

inductive IpVersion where
  | ipv4
  | ipv6
deriving DecidableEq

/-- The IP versions that are asked for. -/
structure IpVersions where
  ipv4 : Bool
  ipv6 : Bool
deriving DecidableEq

namespace IpVersions

def both : IpVersions := ⟨true, true⟩

def only : IpVersion → IpVersions
  | .ipv4 => ⟨true, false⟩
  | .ipv6 => ⟨false, true⟩

def contains (versions : IpVersions) : IpVersion → Bool
  | .ipv4 => versions.ipv4
  | .ipv6 => versions.ipv6

/-- The versions asked for, the older one first. -/
def toList (versions : IpVersions) : List IpVersion :=
  [.ipv4, .ipv6].filter versions.contains

private def flag : Bool → Text
  | true => "true".toList
  | false => "false".toList

/-- The form in which messages show the versions. -/
def shown (versions : IpVersions) : Text :=
  "IpVersions \x7b ipv4: ".toList ++ flag versions.ipv4 ++ ", ipv6: ".toList ++
    flag versions.ipv6 ++ " \x7d".toList

end IpVersions

inductive AddressFamily where
  | ipv4Unicast
  | ipv6Unicast
  | any
  | anyUnicast
  /-- Any other token, kept as written. -/
  | other (token : Text)
deriving DecidableEq

namespace AddressFamily

def name : AddressFamily → Text
  | ipv4Unicast => "IPV4.UNICAST".toList
  | ipv6Unicast => "IPV6.UNICAST".toList
  | any => "ANY".toList
  | anyUnicast => "ANY.UNICAST".toList
  | other token => token

/-- The families with a name of their own. -/
def known : List AddressFamily := [ipv4Unicast, ipv6Unicast, any, anyUnicast]

/-- The family that a token names, in any letter case. -/
def ofToken (token : Text) : AddressFamily :=
  match known.find? fun family => Text.sameLetters family.name token with
  | some family => family
  | none => other token

/-- Whether the family is compatible with every IP version. -/
def isWildcard : AddressFamily → Bool
  | any | anyUnicast => true
  | _ => false

/-- Whether rules of the family apply to an IP version. -/
def accepts : AddressFamily → IpVersion → Bool
  | any, _ | anyUnicast, _ => true
  | ipv4Unicast, version => version == .ipv4
  | ipv6Unicast, version => version == .ipv6
  | other _, _ => false

def acceptedBy (family : AddressFamily) (requested : IpVersions) : Bool :=
  requested.toList.any family.accepts

/-- What follows a leading `AFI` and the blanks after it, of which there is at least one. -/
def afterKeyword? (text : Text) : Option Text :=
  match Text.dropHead? Keyword.afi.name text with
  | some (c :: rest) => if Text.isBlank c then some (Text.trimStart (c :: rest)) else none
  | _ => none

/-- Some registry objects glue the token for IPv6 to the `FROM` behind it. This is the text from
that `FROM` on. -/
def afterGluedIpv6? (text : Text) : Option Text :=
  match Text.dropHead? ipv6Unicast.name text with
  | some rest => if (Text.dropHead? Keyword.fromPeer.name rest).isSome then some rest else none
  | none => none

/-- Splits the family off the front of a multiprotocol rule. A rule that names none is for any
family and stays as it is. -/
def resolve (text : Text) : AddressFamily × Text :=
  match afterKeyword? text with
  | none => (any, text)
  | some rest =>
    match afterGluedIpv6? rest with
    | some remainder => (ipv6Unicast, remainder)
    | none =>
      match rest.dropWhile (!Text.isBlank ·) with
      | [] => (any, text)
      | _ :: remainder =>
        (ofToken (rest.takeWhile (!Text.isBlank ·)), Text.trimStart remainder)

end AddressFamily

end RoutingPolicy

import RoutingPolicy.Address.Notation
import RoutingPolicy.Text.Blank

/-!
# Networks

A network is an address and the number of its leading bits that count. The other bits are kept as
they were written.
-/

namespace RoutingPolicy

def Address.bits : Address → Nat
  | .v4 _ => 32
  | .v6 _ => 128

/-- An address with the length of its network part. -/
structure Network where
  address : Address
  length : Nat
  length_le : length ≤ address.bits
deriving DecidableEq

namespace Network

def isIpv6 (network : Network) : Bool := network.address.isIpv6

/-- A length of at most `digits` decimal digits that does not exceed the bits of the address. -/
def withLength? (address : Address) (digits : Nat) (text : Text) : Option Network :=
  if text.length ≤ digits then
    match Text.number? 10 text with
    | some length => if h : length ≤ address.bits then some ⟨address, length, h⟩ else none
    | none => none
  else none

/-- Reads a network: an address, a slash and a length. -/
def read? (text : Text) : Option Network :=
  match Text.splitAt? ['/'] text with
  | none => none
  | some (before, after) =>
    match Ipv4.read? .lax before with
    | some address => withLength? (.v4 address) 2 after
    | none => (Ipv6.read? .lax before).bind fun address => withLength? (.v6 address) 3 after

def toText (network : Network) : Text :=
  network.address.toText ++ ['/'] ++ Text.decimal network.length

end Network

end RoutingPolicy

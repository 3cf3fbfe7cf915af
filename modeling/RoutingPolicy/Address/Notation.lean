import RoutingPolicy.Address.Basic
import RoutingPolicy.Text.Numeral

/-!
# Addresses in text

An IPv4 address is written as four decimal octets with points, an IPv6 address as hexadecimal groups
with colons. One gap `::` may stand for a run of zero groups, and the last two groups may be written
like an IPv4 address.
-/

namespace RoutingPolicy

/-- What a reader of addresses lets pass beyond the plain form. -/
structure AddressSyntax where
  /-- Decimal octets may begin with zeros. -/
  leadingZeros : Bool
  /-- A gap may stand for no group at all. -/
  emptyGap : Bool
deriving DecidableEq

/-- The addresses of routers: nothing beyond the plain form. -/
def AddressSyntax.strict : AddressSyntax := ⟨false, false⟩

/-- The addresses of networks: leading zeros and empty gaps are let pass. -/
def AddressSyntax.lax : AddressSyntax := ⟨true, true⟩

namespace Ipv4

/-- One octet: up to three decimal digits. -/
def octet? (form : AddressSyntax) (text : Text) : Option UInt8 :=
  if text.length ≤ 3 && (form.leadingZeros || text.length == 1 || text.head? != some '0') then
    ((Text.number? 10 text).filter (· < 256)).map UInt8.ofNat
  else none

/-- Reads an address that fills the text. -/
def read? (form : AddressSyntax) (text : Text) : Option Ipv4 :=
  match Text.splitOn '.' text with
  | [a, b, c, d] => do
    return ⟨← octet? form a, ← octet? form b, ← octet? form c, ← octet? form d⟩
  | _ => none

def toText (address : Ipv4) : Text :=
  ['.'].intercalate (address.octets.map fun octet => Text.decimal octet.toNat)

end Ipv4

namespace Ipv6

def group? (text : Text) : Option UInt16 :=
  if text.length ≤ 4 then (Text.number? 16 text).map UInt16.ofNat else none

def groupsOfIpv4 (address : Ipv4) : List UInt16 :=
  [address.a.toUInt16 * 256 + address.b.toUInt16, address.c.toUInt16 * 256 + address.d.toUInt16]

/-- The groups of pieces that stood between colons; the last piece may be an IPv4 address if
`endsInIpv4` allows it. -/
def groups? (form : AddressSyntax) (endsInIpv4 : Bool) : List Text → Option (List UInt16)
  | [] => some []
  | [piece] =>
    match group? piece with
    | some group => some [group]
    | none => if endsInIpv4 then (Ipv4.read? form piece).map groupsOfIpv4 else none
  | piece :: pieces => do
    let group ← group? piece
    let groups ← groups? form endsInIpv4 pieces
    return group :: groups

/-- The groups of a text without a gap; an empty text has none. -/
def run? (form : AddressSyntax) (endsInIpv4 : Bool) (text : Text) : Option (List UInt16) :=
  if text = [] then some [] else groups? form endsInIpv4 (Text.splitOn ':' text)

def ofGroups? (groups : List UInt16) : Option Ipv6 :=
  if h : groups.length = 8 then some ⟨groups, h⟩ else none

def ofGap? (form : AddressSyntax) (before after : List UInt16) : Option Ipv6 :=
  let missing := 8 - (before.length + after.length)
  if before.length < 8 && (form.emptyGap || missing != 0) then
    ofGroups? (before ++ List.replicate missing 0 ++ after)
  else none

/-- Reads an address that fills the text. -/
def read? (form : AddressSyntax) (text : Text) : Option Ipv6 :=
  match Text.splitAt? [':', ':'] text with
  | none => run? form true text >>= ofGroups?
  | some (before, after) => do
    ofGap? form (← run? form false before) (← run? form true after)

def written (groups : List UInt16) : Text :=
  [':'].intercalate (groups.map fun group => Nat.toDigits 16 group.toNat)

/-- Start and length of the first longest run of zeros. -/
def longestZeros : List UInt16 → Nat × Nat
  | [] => (0, 0)
  | group :: groups =>
    let here := ((group :: groups).takeWhile (· == 0)).length
    let (start, length) := longestZeros groups
    if here < length then (start + 1, length) else (0, here)

def mapped? (address : Ipv6) : Option Ipv4 :=
  match address.groups with
  | [0, 0, 0, 0, 0, 0xFFFF, high, low] =>
    some ⟨(high / 256).toUInt8, (high % 256).toUInt8, (low / 256).toUInt8, (low % 256).toUInt8⟩
  | _ => none

/-- The written form. The first longest run of two or more zero groups becomes a gap, and an
IPv4-mapped address shows the address inside it. -/
def toText (address : Ipv6) : Text :=
  match address.mapped? with
  | some inner => "::ffff:".toList ++ inner.toText
  | none =>
    let (start, length) := longestZeros address.groups
    if 2 ≤ length then
      written (address.groups.take start) ++ [':', ':'] ++
        written (address.groups.drop (start + length))
    else written address.groups

end Ipv6

namespace Address

def read? (form : AddressSyntax) (version6 : Bool) (text : Text) : Option Address :=
  if version6 then (Ipv6.read? form text).map v6 else (Ipv4.read? form text).map v4

def readAny? (form : AddressSyntax) (text : Text) : Option Address :=
  read? form false text <|> read? form true text

def toText : Address → Text
  | v4 address => address.toText
  | v6 address => address.toText

end Address

/-- The written form of a pair, the local address first. -/
def AddressPair.toText (pair : AddressPair) : Text :=
  pair.localRouter.toText ++ " <-> ".toList ++ pair.remoteRouter.toText

end RoutingPolicy

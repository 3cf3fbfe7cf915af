import RoutingPolicy.Address.Network
import RoutingPolicy.Export.Object
import RoutingPolicy.Log
import RoutingPolicy.Rule.Family
import RoutingPolicy.Text.Quoted

/-!
# Routes of a registry export

A route object says which system may originate a network. It is read off the primary key of the
object; a key that is incomplete or names no network of the right version is skipped, with a
warning.
-/

namespace RoutingPolicy

open Markup (Element)

/-- A network and the system that may originate it. -/
structure Route where
  network : Network
  origin : Text
deriving DecidableEq

namespace Route

def isIpv6 (route : Route) : Bool := route.network.isIpv6

def toText (route : Route) : Text :=
  route.network.toText ++ " origin ".toList ++ route.origin

/-- The type of the objects that hold routes of an IP version. -/
def objectType : IpVersion → Text
  | .ipv4 => "route".toList
  | .ipv6 => "route6".toList

/-- Why a primary key gives no route. -/
inductive Defect where
  | incomplete (version : IpVersion) (network origin : Option Text)
  | invalid (version : IpVersion) (network : Text)
deriving DecidableEq

def Defect.entry : Defect → LogEntry
  | incomplete version network origin =>
    ⟨.warn, "incomplete ".toList ++ objectType version ++ " object: prefix ".toList ++
      Text.quoted? network ++ " origin ".toList ++ Text.quoted? origin⟩
  | invalid version network =>
    ⟨.warn, "invalid ".toList ++ objectType version ++ " prefix: ".toList ++ network⟩

def lastValue? (name : Text) (attributes : List ObjectAttribute) : Option Text :=
  ((attributes.filter (·.name == name)).getLast?).map (·.value)

/-- Reads a network that has to be of the given version. -/
def networkOf? (version : IpVersion) (text : Text) : Option Network :=
  (Network.read? (Text.trim text)).filter fun network => network.isIpv6 == (version == .ipv6)

def ofKey (version : IpVersion) (key : Element) : Except Defect Route :=
  let attributes := Export.attributesIn key
  let network? := lastValue? (objectType version) attributes
  let origin? := lastValue? "origin".toList attributes
  match network?, origin? with
  | some text, some origin =>
    match networkOf? version text with
    | some network => .ok ⟨network, Text.trim origin⟩
    | none => .error (.invalid version text)
  | _, _ => .error (.incomplete version network? origin?)

/-- The primary keys of the route objects of a version, in document order. -/
def keys (version : IpVersion) (root : Element) : List Element :=
  (Export.objects (objectType version) root).flatMap (·.childrenNamed "primary-key".toList)

/-- What the primary keys for the given versions give, the older version first. -/
def readAll (root : Element) (versions : IpVersions) : List (Except Defect Route) :=
  versions.toList.flatMap fun version => (keys version root).map (ofKey version)

def all (root : Element) (versions : IpVersions) : List Route :=
  (readAll root versions).filterMap Except.toOption

def defects (root : Element) (versions : IpVersions) : List Defect :=
  (readAll root versions).filterMap fun
    | .ok _ => none
    | .error defect => some defect

end Route

end RoutingPolicy

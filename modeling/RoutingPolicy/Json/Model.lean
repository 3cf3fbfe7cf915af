import RoutingPolicy.Export.Route
import RoutingPolicy.Json.Basic
import RoutingPolicy.Session.Basic

/-!
# The model in JSON

How the parts of the peering model are written in JSON. Members stand in the order of their names.
-/

namespace RoutingPolicy

open Json

/-- An object with the given members. -/
def Json.record (members : List (String × Json)) : Json :=
  .object (members.map fun (name, value) => (name.toList, value))

/-- A family is told by a word, one without a name of its own by its token. -/
def AddressFamily.toJson : AddressFamily → Json
  | ipv4Unicast => string "Ipv4Unicast".toList
  | ipv6Unicast => string "Ipv6Unicast".toList
  | any => string "Any".toList
  | anyUnicast => string "AnyUnicast".toList
  | other token => record [("Other", string token)]

def IpVersions.toJson (versions : IpVersions) : Json :=
  record [("ipv4", bool versions.ipv4), ("ipv6", bool versions.ipv6)]

def Direction.toJson (direction : Direction) : Json := string direction.name

def Operator.toJson : Operator → Json
  | assign => string "Assign".toList
  | appendAssign => string "AppendAssign".toList

def Factor.toJson (factor : Factor) : Json :=
  record [("filter", string factor.filter), ("subject", string factor.subject)]

def Action.toJson (action : Action) : Json :=
  record
    [("attribute", string action.name), ("operator", action.operator.toJson),
     ("sequence", number action.sequence), ("value", string action.value)]

def ActionList.toJson (list : ActionList) : Json :=
  record
    [("actions", array (list.actions.map Action.toJson)), ("direction", list.direction.toJson)]

def Address.toJson (address : Address) : Json := string address.toText

def AddressPair.toJson (pair : AddressPair) : Json :=
  record [("local", pair.localRouter.toJson), ("remote", pair.remoteRouter.toJson)]

def Fingerprint.toJson (fingerprint : Fingerprint) : Json := string fingerprint.toText

def FilterRef.toJson (filter : FilterRef) : Json :=
  record
    [("fingerprint", filter.fingerprint.toJson), ("multiprotocol", bool filter.multiprotocol)]

def PeeringPoint.toJson (point : PeeringPoint) : Json :=
  record
    [("addresses", optional (point.addresses.map AddressPair.toJson)),
     ("export_actions", optional (point.exportActions.map ActionList.toJson)),
     ("import_actions", optional (point.importActions.map ActionList.toJson)),
     ("multiprotocol", bool point.multiprotocol)]

/-- Points and filters are written as plain lists, in their order. -/
def Peer.toJson (peer : Peer) : Json :=
  record
    [("filters", array (peer.filterList.map FilterRef.toJson)),
     ("identifier", string peer.identifier),
     ("peering_points", array (peer.pointList.map PeeringPoint.toJson))]

/-- A directory is an object with a member for each peer. -/
def Directory.toJson (directory : Directory) : Json :=
  object (directory.toList.map fun (identifier, peer) => (identifier, peer.toJson))

/-- A catalog is an object with a member for each filter. -/
def Catalog.toJson (catalog : Catalog) : Json :=
  object (catalog.toList.map fun (fingerprint, filter) => (fingerprint.toText, string filter))

def Route.toJson (route : Route) : Json :=
  record [("origin", string route.origin), ("prefix", string route.network.toText)]

def Summary.toJson (summary : Summary) : Json :=
  record
    [("accepted", number summary.accepted), ("failed", number summary.failed),
     ("mismatched", number summary.mismatched)]

end RoutingPolicy

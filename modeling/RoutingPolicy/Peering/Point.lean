import RoutingPolicy.Address.Basic
import RoutingPolicy.Rule.Action

/-!
# Peering points

A peering point is a session between two systems over one pair of router addresses. Rules without
addresses are collected in a point of their own. A point holds at most one list of actions for each
direction.
-/

namespace RoutingPolicy

/-- A session with a peer. -/
structure PeeringPoint where
  multiprotocol : Bool
  /-- The routers at its ends, which identify the point among those of a peer. -/
  addresses : Option AddressPair
  importActions : Option ActionList
  exportActions : Option ActionList
deriving DecidableEq

namespace PeeringPoint

def new (multiprotocol : Bool) (addresses : Option AddressPair) : PeeringPoint :=
  ⟨multiprotocol, addresses, none, none⟩

/-- What a slot for actions holds after a list has been put into it. -/
def fill (slot : Option ActionList) (list : ActionList) : Option ActionList :=
  match slot with
  | none => some list
  | some existing => some (existing.merge list)

/-- Adds actions in the slot of their direction. -/
def addActions (point : PeeringPoint) (list : ActionList) : PeeringPoint :=
  match list.direction with
  | .incoming => { point with importActions := fill point.importActions list }
  | .outgoing => { point with exportActions := fill point.exportActions list }

def addActions? (point : PeeringPoint) : Option ActionList → PeeringPoint
  | none => point
  | some list => point.addActions list

def actions (point : PeeringPoint) : Direction → Option ActionList
  | .incoming => point.importActions
  | .outgoing => point.exportActions

/-- Takes over what another point says. The result is multiprotocol if one of the two is. -/
def merge (point other : PeeringPoint) : PeeringPoint :=
  ({ point with multiprotocol := point.multiprotocol || other.multiprotocol }.addActions?
    other.importActions).addActions? other.exportActions

end PeeringPoint

end RoutingPolicy

import Std.Data.ExtTreeSet
import RoutingPolicy.Filter.Fingerprint
import RoutingPolicy.Peering.Point

/-!
# Peers

A peer is a neighbouring system, or a set of them, that the policy names. It has peering points,
found by their addresses, and references to the filters in use towards it.
-/

namespace RoutingPolicy

/-- A neighbour named in the policy. -/
structure Peer where
  identifier : Text
  points : Std.ExtTreeMap (Option AddressPair) PeeringPoint
  filters : Std.ExtTreeSet FilterRef

namespace Peer

def new (identifier : Text) : Peer := ⟨identifier, ∅, ∅⟩

def addFilter (peer : Peer) (filter : FilterRef) : Peer :=
  { peer with filters := peer.filters.insert filter }

/-- Whether a filter is in use, with either kind of rule. -/
def hasFilter (peer : Peer) (fingerprint : Fingerprint) : Bool :=
  peer.filters.toList.any (·.fingerprint == fingerprint)

def point? (peer : Peer) (addresses : Option AddressPair) : Option PeeringPoint :=
  peer.points[addresses]?

/-- Attaches a point, or merges it into the point that has the same addresses. -/
def attach (peer : Peer) (point : PeeringPoint) : Peer :=
  let join : Option PeeringPoint → Option PeeringPoint
    | none => some point
    | some existing => some (existing.merge point)
  { peer with points := peer.points.alter point.addresses join }

/-- The points, ordered by their addresses. -/
def pointList (peer : Peer) : List PeeringPoint := peer.points.toList.map Prod.snd

def filterList (peer : Peer) : List FilterRef := peer.filters.toList

/-- Takes over what another record of the same peer says. -/
def merge (peer other : Peer) : Peer :=
  other.pointList.foldl attach (other.filterList.foldl addFilter peer)

@[ext] theorem ext {a b : Peer} (hidentifier : a.identifier = b.identifier)
    (hpoints : ∀ addresses, a.point? addresses = b.point? addresses)
    (hfilters : ∀ filter, filter ∈ a.filters ↔ filter ∈ b.filters) : a = b := by
  cases a
  cases b
  cases hidentifier
  cases Std.ExtTreeMap.ext_getElem? hpoints
  cases Std.ExtTreeSet.ext_mem hfilters
  rfl

theorem point?_attach (peer : Peer) (point : PeeringPoint) (addresses : Option AddressPair) :
    (peer.attach point).point? addresses =
      if point.addresses = addresses then
        match peer.point? addresses with
        | none => some point
        | some existing => some (existing.merge point)
      else peer.point? addresses := by
  simp only [attach, point?, Std.ExtTreeMap.getElem?_alter, Std.LawfulEqCmp.compare_eq_iff_eq]
  split
  next h => subst h; rfl
  next => rfl

end Peer

end RoutingPolicy

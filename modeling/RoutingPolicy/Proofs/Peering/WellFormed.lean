import RoutingPolicy.Proofs.Peering.Merge
import RoutingPolicy.Proofs.Rule.Action
import RoutingPolicy.Proofs.Rule.Token

/-!
# Well-formed directories

What can be relied on in a directory, level by level: lists of actions, points, peers. Each level is
kept by its merge. The IP version of a point is tied to its flag by its key, since two points are only
merged when their addresses agree.
-/

namespace RoutingPolicy

/-- A list of one direction, without repetitions. -/
structure ActionList.WellFormed (list : ActionList) (direction : Direction) : Prop where
  direction_eq : list.direction = direction
  nodup : list.actions.Nodup
  unbroken : ∀ action ∈ list.actions, action.Unbroken

/-- A point whose slots hold lists of their own directions, and which is multiprotocol exactly if its
routers, should it have any, have IPv6 addresses. -/
structure PeeringPoint.WellFormed (point : PeeringPoint) : Prop where
  actions : ∀ direction list, point.actions direction = some list → list.WellFormed direction
  routers : ∀ pair, point.addresses = some pair →
    pair.localRouter.isIpv6 = point.multiprotocol ∧ pair.remoteRouter.isIpv6 = point.multiprotocol

/-- A peer with points under their own addresses. A reference that comes from a multiprotocol rule
has a multiprotocol point beside it. -/
structure Peer.WellFormed (peer : Peer) : Prop where
  identifier : PlainWord peer.identifier
  exists_point : ∃ addresses point, peer.point? addresses = some point
  point : ∀ addresses point, peer.point? addresses = some point →
    point.addresses = addresses ∧ point.WellFormed
  multiprotocol : ∀ ref ∈ peer.filters, ref.multiprotocol = true →
    ∃ addresses point, peer.point? addresses = some point ∧ point.multiprotocol = true

/-- Every peer is stored under its identifier. -/
def Directory.WellFormed (directory : Directory) : Prop :=
  ∀ identifier peer, directory.get? identifier = some peer →
    peer.identifier = identifier ∧ peer.WellFormed

theorem ActionList.WellFormed.merge {list other : ActionList} {direction : Direction}
    (hlist : list.WellFormed direction) (hother : other.WellFormed direction) :
    (list.merge other).WellFormed direction where
  direction_eq := hlist.direction_eq
  nodup := by
    rw [actions_merge hlist.nodup]
    exact nodup_eraseDups _
  unbroken action haction := by
    rw [actions_merge hlist.nodup, List.mem_eraseDups, List.mem_append] at haction
    exact haction.elim (hlist.unbroken action) (hother.unbroken action)

namespace PeeringPoint

theorem WellFormed.directed {point : PeeringPoint} (hpoint : point.WellFormed) : point.Directed :=
  fun direction list hlist => (hpoint.actions direction list hlist).direction_eq

theorem WellFormed.merge {point other : PeeringPoint} (hpoint : point.WellFormed)
    (hother : other.WellFormed) (haddresses : other.addresses = point.addresses) :
    (point.merge other).WellFormed where
  actions direction := by
    rw [actions_merge point hother.directed]
    exact forall_merge (hpoint.actions direction) (hother.actions direction)
      fun _ _ => ActionList.WellFormed.merge
  routers pair hpair := by
    rw [addresses_merge] at hpair
    obtain ⟨hlocal, hremote⟩ := hpoint.routers pair hpair
    obtain ⟨hlocalOther, -⟩ := hother.routers pair (haddresses.trans hpair)
    rw [multiprotocol_merge, ← hlocalOther, ← hlocal, Bool.or_self]
    exact ⟨rfl, hremote.trans hlocal.symm⟩

end PeeringPoint

namespace Peer

theorem WellFormed.keyed {peer : Peer} (hpeer : peer.WellFormed) : peer.Keyed :=
  fun addresses point hpoint => (hpeer.point addresses point hpoint).1

/-- Points are kept by a merge, and so is their flag. -/
theorem exists_point?_merge {peer other : Peer} (hother : other.Keyed)
    {addresses : Option AddressPair} {point : PeeringPoint}
    (hpoint : peer.point? addresses = some point ∨ other.point? addresses = some point) :
    ∃ merged, (peer.merge other).point? addresses = some merged ∧
      (point.multiprotocol = true → merged.multiprotocol = true) := by
  rw [point?_merge peer hother]
  rcases hpoint with hpoint | hpoint
  · cases hsecond : other.point? addresses with
    | none => exact ⟨point, by rw [hpoint, Option.merge_none_right], id⟩
    | some second =>
      refine ⟨point.merge second, by rw [hpoint, Option.merge_some_some], ?_⟩
      intro hmultiprotocol
      rw [PeeringPoint.multiprotocol_merge, hmultiprotocol, Bool.true_or]
  · cases hfirst : peer.point? addresses with
    | none => exact ⟨point, by rw [hpoint, Option.merge_none_left], id⟩
    | some first =>
      refine ⟨first.merge point, by rw [hpoint, Option.merge_some_some], ?_⟩
      intro hmultiprotocol
      rw [PeeringPoint.multiprotocol_merge, hmultiprotocol, Bool.or_true]

theorem WellFormed.merge {peer other : Peer} (hpeer : peer.WellFormed) (hother : other.WellFormed) :
    (peer.merge other).WellFormed where
  identifier := by
    rw [identifier_merge]
    exact hpeer.identifier
  exists_point := by
    obtain ⟨addresses, point, hpoint⟩ := hpeer.exists_point
    obtain ⟨merged, hmerged, -⟩ := exists_point?_merge hother.keyed (.inl hpoint)
    exact ⟨addresses, merged, hmerged⟩
  point addresses := by
    rw [point?_merge peer hother.keyed]
    refine forall_merge (hpeer.point addresses) (hother.point addresses) ?_
    rintro one two ⟨haddresses, hone⟩ ⟨haddressesOther, htwo⟩
    exact ⟨(PeeringPoint.addresses_merge one two).trans haddresses,
      hone.merge htwo (haddressesOther.trans haddresses.symm)⟩
  multiprotocol ref href hmultiprotocol := by
    have hsource : ∃ addresses point, (peer.point? addresses = some point ∨
        other.point? addresses = some point) ∧ point.multiprotocol = true := by
      rcases (mem_filters_merge peer other ref).1 href with href | href
      · obtain ⟨addresses, point, hpoint, hflag⟩ := hpeer.multiprotocol ref href hmultiprotocol
        exact ⟨addresses, point, .inl hpoint, hflag⟩
      · obtain ⟨addresses, point, hpoint, hflag⟩ := hother.multiprotocol ref href hmultiprotocol
        exact ⟨addresses, point, .inr hpoint, hflag⟩
    obtain ⟨addresses, point, hpoint, hflag⟩ := hsource
    obtain ⟨merged, hmerged, hkeep⟩ := exists_point?_merge hother.keyed hpoint
    exact ⟨addresses, merged, hmerged, hkeep hflag⟩

end Peer

/-- What holds of every peer in a directory, each stored under its identifier, and is kept by merging
peers, is kept by inserting one. -/
theorem Directory.forall_get?_insert {Holds : Peer → Prop}
    (hmerge : ∀ one two, Holds one → Holds two → Holds (one.merge two)) {directory : Directory}
    (hdirectory : ∀ identifier peer, directory.get? identifier = some peer →
      peer.identifier = identifier ∧ Holds peer)
    {peer : Peer} (hpeer : Holds peer) (identifier : Text) :
    ∀ found, (directory.insert peer).get? identifier = some found →
      found.identifier = identifier ∧ Holds found := by
  rw [get?_insert_eq_merge]
  split
  next hidentifier =>
    refine forall_merge (hdirectory identifier) ?_ ?_
    · rintro two ⟨⟩
      exact ⟨hidentifier, hpeer⟩
    · rintro one two ⟨hone_identifier, hone⟩ ⟨-, htwo⟩
      exact ⟨(Peer.identifier_merge one two).trans hone_identifier, hmerge one two hone htwo⟩
  next => exact hdirectory identifier

theorem Directory.WellFormed.insert {directory : Directory} (hdirectory : directory.WellFormed)
    {peer : Peer} (hpeer : peer.WellFormed) : (directory.insert peer).WellFormed :=
  forall_get?_insert (fun _ _ => Peer.WellFormed.merge) hdirectory hpeer

end RoutingPolicy

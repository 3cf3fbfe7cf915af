import RoutingPolicy.Proofs.Peering.Within

/-!
# The laws of merging

Records of one peer that are made from nothing, by adding filters and attaching points, can be
merged in any grouping. A record that is merged with itself or with an empty one stays as it is,
also where a list repeats an action: a list is taken over as it stands if there is none yet. The
order of two records matters only for the order of actions and for how often one of them is
repeated.
-/

namespace RoutingPolicy

/-! ### Records made from nothing -/

/-- A point made from an empty one by giving it addresses and adding lists, whatever is in them. -/
inductive PeeringPoint.Built : PeeringPoint → Prop
  | new (multiprotocol : Bool) : Built (new multiprotocol none)
  | withAddresses {point : PeeringPoint} (hpoint : Built point) (pair : AddressPair) :
      Built { point with addresses := some pair }
  | addActions {point : PeeringPoint} (hpoint : Built point) (list : ActionList) :
      Built (point.addActions list)

/-- A record of a peer made from an empty one. -/
inductive Peer.Built (identifier : Text) : Peer → Prop
  | new : Built identifier (new identifier)
  | addFilter {peer : Peer} (hpeer : Built identifier peer) (ref : FilterRef) :
      Built identifier (peer.addFilter ref)
  | attach {peer : Peer} (hpeer : Built identifier peer) {point : PeeringPoint}
      (hpoint : point.Built) : Built identifier (peer.attach point)

theorem PeeringPoint.Built.directed {point : PeeringPoint} (hpoint : point.Built) :
    point.Directed := by
  induction hpoint with
  | new multiprotocol =>
    intro direction list hlist
    rw [actions_new] at hlist
    exact absurd hlist.symm (Option.some_ne_none list)
  | withAddresses hpoint pair ih =>
    intro direction
    cases direction with
    | incoming => exact ih .incoming
    | outgoing => exact ih .outgoing
  | @addActions point hpoint list ih =>
    intro direction
    rw [actions_addActions]
    split
    next hdirection =>
      refine forall_merge (ih direction) ?_ fun _ _ hone _ => hone
      rintro other ⟨⟩
      exact hdirection
    next => exact ih direction

namespace Peer

theorem regular_new (identifier : Text) : (new identifier).Regular := by
  intro addresses point hpoint
  rw [point?_new] at hpoint
  exact absurd hpoint.symm (Option.some_ne_none point)

theorem Regular.attach {peer : Peer} (hpeer : peer.Regular) {point : PeeringPoint}
    (hpoint : point.Directed) : (peer.attach point).Regular := by
  intro addresses
  rw [point?_attach_eq_merge]
  split
  next haddresses =>
    refine forall_merge (hpeer addresses) ?_ ?_
    · rintro other ⟨⟩
      exact ⟨haddresses, hpoint⟩
    · rintro one two ⟨hone_addresses, hone⟩ ⟨-, htwo⟩
      exact ⟨(PeeringPoint.addresses_merge one two).trans hone_addresses, hone.merge htwo⟩
  next => exact hpeer addresses

section Built

variable {identifier : Text} {peer : Peer}

theorem Built.regular (hpeer : peer.Built identifier) : peer.Regular := by
  induction hpeer with
  | new => exact regular_new identifier
  | addFilter hpeer ref ih => exact ih
  | attach hpeer hpoint ih => exact ih.attach hpoint.directed

theorem Built.identifier_eq (hpeer : peer.Built identifier) : peer.identifier = identifier := by
  induction hpeer with
  | new => rfl
  | addFilter hpeer ref ih | attach hpeer hpoint ih => exact ih

end Built

end Peer

/-! ### Records with the same contents -/

/-- The same actions, in any order and any number. -/
structure ActionList.SameContents (list other : ActionList) : Prop where
  direction : list.direction = other.direction
  mem_iff : ∀ action, action ∈ list.actions ↔ action ∈ other.actions

structure PeeringPoint.SameContents (point other : PeeringPoint) : Prop where
  multiprotocol : point.multiprotocol = other.multiprotocol
  addresses : point.addresses = other.addresses
  actions : ∀ direction,
    Option.Rel ActionList.SameContents (point.actions direction) (other.actions direction)

structure Peer.SameContents (peer other : Peer) : Prop where
  identifier : peer.identifier = other.identifier
  filters : peer.filters = other.filters
  point? : ∀ addresses,
    Option.Rel PeeringPoint.SameContents (peer.point? addresses) (other.point? addresses)

/-- Where both sides have something the order of a merge may matter, and nowhere else. -/
theorem rel_merge_comm {Item : Type} {combine : Item → Item → Item} {Same : Item → Item → Prop}
    {first second : Option Item} (hrefl : ∀ item, Same item item)
    (hcomm : ∀ one two, first = some one → second = some two →
      Same (combine one two) (combine two one)) :
    Option.Rel Same (Option.merge combine first second) (Option.merge combine second first) := by
  cases first with
  | none =>
    rw [Option.merge_none_left, Option.merge_none_right]
    cases second with
    | none => exact .none
    | some two => exact .some (hrefl two)
  | some one =>
    cases second with
    | none => exact .some (hrefl one)
    | some two => exact .some (hcomm one two rfl rfl)

namespace ActionList

theorem SameContents.refl (list : ActionList) : list.SameContents list :=
  ⟨rfl, fun _ => Iff.rfl⟩

theorem merge_comm {list other : ActionList} (hdirection : list.direction = other.direction) :
    (list.merge other).SameContents (other.merge list) where
  direction := hdirection
  mem_iff action := by rw [mem_actions_merge, mem_actions_merge, or_comm]

end ActionList

namespace PeeringPoint

theorem SameContents.refl (point : PeeringPoint) : point.SameContents point where
  multiprotocol := rfl
  addresses := rfl
  actions direction := by
    cases point.actions direction with
    | none => exact .none
    | some list => exact .some (.refl list)

theorem merge_comm {point other : PeeringPoint} (hpoint : point.Directed) (hother : other.Directed)
    (haddresses : point.addresses = other.addresses) :
    (point.merge other).SameContents (other.merge point) where
  multiprotocol := by rw [multiprotocol_merge, multiprotocol_merge, Bool.or_comm]
  addresses := by rw [addresses_merge, addresses_merge, haddresses]
  actions direction := by
    rw [actions_merge point hother, actions_merge other hpoint]
    exact rel_merge_comm ActionList.SameContents.refl fun one two hone htwo =>
      ActionList.merge_comm ((hpoint direction one hone).trans (hother direction two htwo).symm)

end PeeringPoint

namespace Peer

variable {identifier : Text} {peer other third : Peer}

theorem merge_comm (hpeer : peer.Regular) (hother : other.Regular)
    (hidentifier : peer.identifier = other.identifier) :
    (peer.merge other).SameContents (other.merge peer) where
  identifier := by rw [identifier_merge, identifier_merge, hidentifier]
  filters := by
    apply Std.ExtTreeSet.ext_mem
    intro ref
    rw [mem_filters_merge, mem_filters_merge, or_comm]
  point? addresses := by
    rw [point?_merge peer hother.keyed, point?_merge other hpeer.keyed]
    refine rel_merge_comm PeeringPoint.SameContents.refl fun one two hone htwo => ?_
    obtain ⟨hone_addresses, hone⟩ := hpeer addresses one hone
    obtain ⟨htwo_addresses, htwo⟩ := hother addresses two htwo
    exact PeeringPoint.merge_comm hone htwo (hone_addresses.trans htwo_addresses.symm)

/-! ### Merging with oneself and with nothing -/

theorem merge_self (hpeer : peer.Regular) : peer.merge peer = peer :=
  isJoin_merge.absorb peer peer hpeer (isJoin_merge.refl peer)

theorem within_new (identifier : Text) (peer : Peer) : (new identifier).Within peer where
  filters ref href := by
    have hnone : ref ∉ (∅ : Std.ExtTreeSet FilterRef) := Std.ExtTreeSet.not_mem_empty
    exact absurd href hnone
  point? addresses := by
    rw [point?_new]
    cases peer.point? addresses <;> trivial

theorem merge_new (identifier : Text) (peer : Peer) : peer.merge (new identifier) = peer :=
  isJoin_merge.absorb peer _ (regular_new identifier) (within_new identifier peer)

theorem new_merge (hpeer : peer.Regular) : (new peer.identifier).merge peer = peer := by
  apply Peer.ext
  · rw [identifier_merge]
    rfl
  · intro addresses
    rw [point?_merge _ hpeer.keyed, point?_new, Option.merge_none_left]
  · intro ref
    have hnone : ref ∉ (new peer.identifier).filters := Std.ExtTreeSet.not_mem_empty
    rw [mem_filters_merge, or_iff_right hnone]

/-- Records of one peer can be merged in any grouping, with the same order of actions. One that is
merged with itself, or with an empty one on either side, stays as it is. Exchanging two of them
keeps filters, points, flags, slots and sets of actions. -/
theorem merge_laws (hpeer : peer.Built identifier) (hother : other.Built identifier)
    (hthird : third.Built identifier) :
    (peer.merge other).merge third = peer.merge (other.merge third) ∧
      peer.merge peer = peer ∧ peer.merge (new identifier) = peer ∧
        (new identifier).merge peer = peer ∧ (peer.merge other).SameContents (other.merge peer) := by
  have hidentifier : peer.identifier = other.identifier :=
    hpeer.identifier_eq.trans hother.identifier_eq.symm
  refine ⟨merge_assoc peer hother.regular hthird.regular, merge_self hpeer.regular,
    merge_new identifier peer, ?_, merge_comm hpeer.regular hother.regular hidentifier⟩
  rw [← hpeer.identifier_eq]
  exact new_merge hpeer.regular

/-- Three records of one peer. The list of the first one repeats an action that the second one has
too, and the third one has addresses and a filter. -/
theorem merge_laws_repeated_action :
    let identifier : Text := "AS1".toList
    let pref : Action := ⟨0, "pref".toList, .assign, "10".toList⟩
    let med : Action := ⟨1, "med".toList, .assign, "0".toList⟩
    let pair : AddressPair := ⟨.v4 ⟨10, 0, 0, 1⟩, .v4 ⟨10, 0, 0, 2⟩⟩
    let peer := (new identifier).attach
      ((PeeringPoint.new true none).addActions ⟨.incoming, [pref, pref]⟩)
    let other := (new identifier).attach
      ((PeeringPoint.new false none).addActions ⟨.incoming, [med, pref]⟩)
    let third := ((new identifier).addFilter ⟨⟨7⟩, false⟩).attach
      ((({ PeeringPoint.new false none with addresses := some pair } : PeeringPoint).addActions
        ⟨.outgoing, [med]⟩))
    (peer.Built identifier ∧ other.Built identifier ∧ third.Built identifier) ∧
      (peer.merge other).merge third = peer.merge (other.merge third) ∧
        peer.merge peer = peer ∧ peer.merge (new identifier) = peer ∧
          (new identifier).merge peer = peer ∧
            (peer.merge other).SameContents (other.merge peer) := by
  intro identifier pref med pair peer other third
  have hpeer : peer.Built identifier := .attach .new (.addActions (.new true) _)
  have hother : other.Built identifier := .attach .new (.addActions (.new false) _)
  have hthird : third.Built identifier :=
    .attach (.addFilter .new _) (.addActions (.withAddresses (.new false) pair) _)
  exact ⟨⟨hpeer, hother, hthird⟩, merge_laws hpeer hother hthird⟩

end Peer

end RoutingPolicy

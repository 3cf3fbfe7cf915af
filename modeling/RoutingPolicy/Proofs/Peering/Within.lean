import RoutingPolicy.Proofs.Peering.Associativity

/-!
# Records that have what others have

A record is within another one if everything it says is said by the other one too. Among the records
that two records are within, their merge is the least. In particular a merge changes nothing, not even
the order of actions, if what is merged is within the record already. These are the laws of `IsJoin`.
They pass from what is there to what may be absent, and so from each level to the one above it.
-/

namespace RoutingPolicy

/-- Combining gives the least item that two items are within, and gives the first item itself if the
second is within it. The second item has to be proper. -/
structure IsJoin {Item : Type} (combine : Item → Item → Item) (within : Item → Item → Prop)
    (Proper : Item → Prop) : Prop where
  refl : ∀ item, within item item
  trans : ∀ one two three, within one two → within two three → within one three
  left : ∀ one two, Proper two → within one (combine one two)
  right : ∀ one two, Proper two → within two (combine one two)
  least : ∀ one two three, Proper two → within one three → within two three →
    within (combine one two) three
  absorb : ∀ one two, Proper two → within two one → combine one two = one

/-- What may be absent is merged by the same laws, with nothing as the least. -/
theorem IsJoin.option {Item : Type} {combine : Item → Item → Item} {within : Item → Item → Prop}
    {Proper : Item → Prop} (hjoin : IsJoin combine within Proper) :
    IsJoin (Option.merge combine) (Option.le within) fun option =>
      ∀ item, option = some item → Proper item where
  refl option := by
    cases option with
    | none => trivial
    | some item => exact hjoin.refl item
  trans first second third hsecond hthird := by
    cases first with
    | none => cases third <;> trivial
    | some one =>
      cases second with
      | none => exact hsecond.elim
      | some two =>
        cases third with
        | none => exact hthird.elim
        | some three => exact hjoin.trans one two three hsecond hthird
  left first second hproper := by
    cases first with
    | none => cases second <;> trivial
    | some one =>
      cases second with
      | none => exact hjoin.refl one
      | some two => exact hjoin.left one two (hproper two rfl)
  right first second hproper := by
    cases second with
    | none => cases first <;> trivial
    | some two =>
      cases first with
      | none => exact hjoin.refl two
      | some one => exact hjoin.right one two (hproper two rfl)
  least first second third hproper hfirst hsecond := by
    cases first with
    | none =>
      rw [Option.merge_none_left]
      exact hsecond
    | some one =>
      cases second with
      | none => exact hfirst
      | some two =>
        cases third with
        | none => exact hfirst.elim
        | some three => exact hjoin.least one two three (hproper two rfl) hfirst hsecond
  absorb first second hproper hsecond := by
    cases second with
    | none => exact Option.merge_none_right
    | some two =>
      cases first with
      | none => exact hsecond.elim
      | some one =>
        rw [Option.merge_some_some, hjoin.absorb one two (hproper two rfl) hsecond]

/-! ### Lists of actions, points and peers -/

def ActionList.Within (list other : ActionList) : Prop :=
  ∀ action ∈ list.actions, action ∈ other.actions

/-- The other point is multiprotocol if this one is, and has every list that this one has, with all of
its actions. -/
structure PeeringPoint.Within (point other : PeeringPoint) : Prop where
  multiprotocol : point.multiprotocol = true → other.multiprotocol = true
  actions : ∀ direction,
    Option.le ActionList.Within (point.actions direction) (other.actions direction)

/-- The other peer has every filter reference and every point that this one has. -/
structure Peer.Within (peer other : Peer) : Prop where
  filters : ∀ ref ∈ peer.filters, ref ∈ other.filters
  point? : ∀ addresses,
    Option.le PeeringPoint.Within (peer.point? addresses) (other.point? addresses)

/-- The other directory has every peer that this one has. -/
def Directory.Within (directory other : Directory) : Prop :=
  ∀ identifier, Option.le Peer.Within (directory.get? identifier) (other.get? identifier)

namespace ActionList

theorem mem_actions_merge (list other : ActionList) (action : Action) :
    action ∈ (list.merge other).actions ↔ action ∈ list.actions ∨ action ∈ other.actions :=
  mem_foldl_add list.actions other.actions action

theorem foldl_add_eq_self {seen actions : List Action} (hseen : ∀ action ∈ actions, action ∈ seen) :
    actions.foldl add seen = seen := by
  induction actions with
  | nil => rfl
  | cons action actions ih =>
    rw [List.foldl_cons, add, if_pos (hseen action List.mem_cons_self)]
    exact ih fun other hother => hseen other (List.mem_cons_of_mem action hother)

theorem isJoin_merge : IsJoin merge Within fun _ => True where
  refl _ _ haction := haction
  trans _ _ _ hsecond hthird action haction := hthird action (hsecond action haction)
  left list other _ action haction := (mem_actions_merge list other action).2 (.inl haction)
  right list other _ action haction := (mem_actions_merge list other action).2 (.inr haction)
  least list other third _ hlist hother action haction :=
    ((mem_actions_merge list other action).1 haction).elim (hlist action) (hother action)
  absorb list other _ hother := by rw [merge, foldl_add_eq_self hother]

end ActionList

namespace PeeringPoint

theorem isJoin_merge : IsJoin merge Within Directed where
  refl point := ⟨id, fun _ => ActionList.isJoin_merge.option.refl _⟩
  trans _ _ _ hsecond hthird :=
    ⟨fun hpoint => hthird.multiprotocol (hsecond.multiprotocol hpoint), fun direction =>
      ActionList.isJoin_merge.option.trans _ _ _ (hsecond.actions direction)
        (hthird.actions direction)⟩
  left point other hother := by
    refine ⟨fun hpoint => by rw [multiprotocol_merge, hpoint, Bool.true_or], fun direction => ?_⟩
    rw [actions_merge point hother]
    exact ActionList.isJoin_merge.option.left _ _ fun _ _ => trivial
  right point other hother := by
    refine ⟨fun hpoint => by rw [multiprotocol_merge, hpoint, Bool.or_true], fun direction => ?_⟩
    rw [actions_merge point hother]
    exact ActionList.isJoin_merge.option.right _ _ fun _ _ => trivial
  least point other third hother hpoint hsecond := by
    refine ⟨fun hmerge => ?_, fun direction => ?_⟩
    · rw [multiprotocol_merge, Bool.or_eq_true] at hmerge
      exact hmerge.elim hpoint.multiprotocol hsecond.multiprotocol
    · rw [actions_merge point hother]
      exact ActionList.isJoin_merge.option.least _ _ _ (fun _ _ => trivial)
        (hpoint.actions direction) (hsecond.actions direction)
  absorb point other hother hwithin := by
    apply ext_actions
    · rw [multiprotocol_merge]
      cases hflag : other.multiprotocol with
      | false => rw [Bool.or_false]
      | true => rw [hwithin.multiprotocol hflag, Bool.or_true]
    · rw [addresses_merge]
    · intro direction
      rw [actions_merge point hother]
      exact ActionList.isJoin_merge.option.absorb _ _ (fun _ _ => trivial)
        (hwithin.actions direction)

end PeeringPoint

namespace Peer

theorem Regular.directed {peer : Peer} (hpeer : peer.Regular) (addresses : Option AddressPair)
    (point : PeeringPoint) (hpoint : peer.point? addresses = some point) : point.Directed :=
  (hpeer addresses point hpoint).2

theorem isJoin_merge : IsJoin merge Within Regular where
  refl peer := ⟨fun _ href => href, fun _ => PeeringPoint.isJoin_merge.option.refl _⟩
  trans _ _ _ hsecond hthird :=
    ⟨fun ref href => hthird.filters ref (hsecond.filters ref href), fun addresses =>
      PeeringPoint.isJoin_merge.option.trans _ _ _ (hsecond.point? addresses)
        (hthird.point? addresses)⟩
  left peer other hother := by
    refine ⟨fun ref href => (mem_filters_merge peer other ref).2 (.inl href), fun addresses => ?_⟩
    rw [point?_merge peer hother.keyed]
    exact PeeringPoint.isJoin_merge.option.left _ _ (hother.directed addresses)
  right peer other hother := by
    refine ⟨fun ref href => (mem_filters_merge peer other ref).2 (.inr href), fun addresses => ?_⟩
    rw [point?_merge peer hother.keyed]
    exact PeeringPoint.isJoin_merge.option.right _ _ (hother.directed addresses)
  least peer other third hother hpeer hsecond := by
    refine ⟨fun ref href => ?_, fun addresses => ?_⟩
    · exact ((mem_filters_merge peer other ref).1 href).elim (hpeer.filters ref)
        (hsecond.filters ref)
    · rw [point?_merge peer hother.keyed]
      exact PeeringPoint.isJoin_merge.option.least _ _ _ (hother.directed addresses)
        (hpeer.point? addresses) (hsecond.point? addresses)
  absorb peer other hother hwithin := by
    apply Peer.ext
    · rw [identifier_merge]
    · intro addresses
      rw [point?_merge peer hother.keyed]
      exact PeeringPoint.isJoin_merge.option.absorb _ _ (hother.directed addresses)
        (hwithin.point? addresses)
    · intro ref
      rw [mem_filters_merge]
      exact ⟨fun href => href.elim id (hwithin.filters ref), .inl⟩

theorem Regular.of_eq_some {peer : Peer} (hpeer : peer.Regular) (item : Peer)
    (hitem : some peer = some item) : item.Regular :=
  Option.some.inj hitem ▸ hpeer

end Peer

/-! ### Directories -/

namespace Directory

/-- The directory has all that is said of a peer. -/
def Covers (directory : Directory) (peer : Peer) : Prop :=
  Option.le Peer.Within (some peer) (directory.get? peer.identifier)

variable {directory other : Directory} {peer : Peer}

theorem within_insert (directory : Directory) (hpeer : peer.Regular) :
    directory.Within (directory.insert peer) := by
  intro identifier
  rw [get?_insert_eq_merge]
  split
  next => exact Peer.isJoin_merge.option.left _ _ hpeer.of_eq_some
  next => exact Peer.isJoin_merge.option.refl _

theorem covers_insert (directory : Directory) (hpeer : peer.Regular) :
    (directory.insert peer).Covers peer := by
  rw [Covers, get?_insert_eq_merge, if_pos rfl]
  exact Peer.isJoin_merge.option.right _ _ hpeer.of_eq_some

theorem Covers.mono (hpeer : directory.Covers peer) (hdirectory : directory.Within other) :
    other.Covers peer :=
  Peer.isJoin_merge.option.trans _ _ _ hpeer (hdirectory peer.identifier)

theorem Within.insert (hdirectory : directory.Within other) (hcovers : other.Covers peer)
    (hpeer : peer.Regular) : (directory.insert peer).Within other := by
  intro identifier
  rw [get?_insert_eq_merge]
  split
  next hidentifier =>
    subst hidentifier
    exact Peer.isJoin_merge.option.least _ _ _ hpeer.of_eq_some (hdirectory _) hcovers
  next => exact hdirectory identifier

/-- A peer of which a directory has everything can be inserted without changing the directory. -/
theorem Covers.insert_eq (hcovers : directory.Covers peer) (hpeer : peer.Regular) :
    directory.insert peer = directory := by
  apply Directory.ext
  intro identifier
  rw [get?_insert_eq_merge]
  split
  next hidentifier =>
    subst hidentifier
    exact Peer.isJoin_merge.option.absorb _ _ hpeer.of_eq_some hcovers
  next => rfl

end Directory

end RoutingPolicy

import RoutingPolicy.Proofs.Peering.WellFormed

/-!
# Merging is associative

Records may be merged in any grouping, and the result is the same down to the order of actions. This
is so on each level for the reason that it is so one level below, and for lists of actions because an
action is added only once, at the first place where it comes up. The levels above need points to be
stored under their own addresses and lists in the slots of their own directions, which is `Regular`.
Two directories are merged by inserting the peers of one into the other, in any order.
-/

namespace RoutingPolicy

namespace ActionList

theorem mem_foldl_add (seen actions : List Action) (action : Action) :
    action ∈ actions.foldl add seen ↔ action ∈ seen ∨ action ∈ actions := by
  induction actions generalizing seen with
  | nil => simp
  | cons other actions ih =>
    have hadd : action ∈ add seen other ↔ action ∈ seen ∨ action = other := by
      unfold add
      split
      next hmem => exact ⟨.inl, fun h => h.elim id fun heq => heq ▸ hmem⟩
      next => simp
    rw [List.foldl_cons, ih, hadd, List.mem_cons, or_assoc]

/-- Adding a list to which an action was added is adding the list and then the action. -/
theorem foldl_add_add (seen actions : List Action) (action : Action) :
    (add actions action).foldl add seen = add (actions.foldl add seen) action := by
  by_cases hmem : action ∈ actions
  · have hseen : action ∈ actions.foldl add seen := (mem_foldl_add _ _ _).2 (.inr hmem)
    rw [add, if_pos hmem, add, if_pos hseen]
  · rw [add, if_neg hmem, List.foldl_append]
    rfl

theorem foldl_add_foldl_add (seen actions others : List Action) :
    (others.foldl add actions).foldl add seen = others.foldl add (actions.foldl add seen) := by
  induction others generalizing actions with
  | nil => rfl
  | cons action others ih => rw [List.foldl_cons, ih, foldl_add_add, List.foldl_cons]

theorem merge_assoc (list other third : ActionList) :
    (list.merge other).merge third = list.merge (other.merge third) := by
  simp only [merge, foldl_add_foldl_add]

end ActionList

namespace PeeringPoint

theorem Directed.merge {point other : PeeringPoint} (hpoint : point.Directed)
    (hother : other.Directed) : (point.merge other).Directed := by
  intro direction
  rw [actions_merge point hother]
  exact forall_merge (hpoint direction) (hother direction) fun _ _ hone _ => hone

theorem merge_assoc (point : PeeringPoint) {other third : PeeringPoint} (hother : other.Directed)
    (hthird : third.Directed) :
    (point.merge other).merge third = point.merge (other.merge third) := by
  apply ext_actions
  · simp only [multiprotocol_merge, Bool.or_assoc]
  · simp only [addresses_merge]
  · intro direction
    rw [actions_merge _ hthird, actions_merge _ hother, actions_merge _ (hother.merge hthird),
      actions_merge _ hthird]
    exact option_merge_assoc fun one two three _ _ => ActionList.merge_assoc one two three

end PeeringPoint

namespace Peer

/-- Every point is stored under its own addresses and has its lists in the right slots. -/
def Regular (peer : Peer) : Prop :=
  ∀ addresses point, peer.point? addresses = some point →
    point.addresses = addresses ∧ point.Directed

theorem Regular.keyed {peer : Peer} (hpeer : peer.Regular) : peer.Keyed :=
  fun addresses point hpoint => (hpeer addresses point hpoint).1

theorem WellFormed.regular {peer : Peer} (hpeer : peer.WellFormed) : peer.Regular :=
  fun addresses point hpoint =>
    ⟨(hpeer.point addresses point hpoint).1, (hpeer.point addresses point hpoint).2.directed⟩

theorem Regular.merge {peer other : Peer} (hpeer : peer.Regular) (hother : other.Regular) :
    (peer.merge other).Regular := by
  intro addresses
  rw [point?_merge peer hother.keyed]
  refine forall_merge (hpeer addresses) (hother addresses) ?_
  rintro one two ⟨haddresses, hone⟩ ⟨-, htwo⟩
  exact ⟨(PeeringPoint.addresses_merge one two).trans haddresses, hone.merge htwo⟩

theorem merge_assoc (peer : Peer) {other third : Peer} (hother : other.Regular)
    (hthird : third.Regular) : (peer.merge other).merge third = peer.merge (other.merge third) := by
  apply Peer.ext
  · simp only [identifier_merge]
  · intro addresses
    rw [point?_merge _ hthird.keyed, point?_merge _ hother.keyed,
      point?_merge _ (hother.merge hthird).keyed, point?_merge _ hthird.keyed]
    exact option_merge_assoc fun one two three htwo hthree => PeeringPoint.merge_assoc one
      (hother addresses two htwo).2 (hthird addresses three hthree).2
  · intro ref
    simp only [mem_filters_merge, or_assoc]

end Peer

namespace Directory

def peerList (directory : Directory) : List Peer := directory.toList.map Prod.snd

/-- Every peer is stored under its identifier and is regular. -/
def Regular (directory : Directory) : Prop :=
  ∀ identifier peer, directory.get? identifier = some peer →
    peer.identifier = identifier ∧ peer.Regular

/-- A directory has all that two directories have, with the records of the first one in front. -/
def Joins (whole first second : Directory) : Prop :=
  ∀ identifier, whole.get? identifier =
    Option.merge Peer.merge (first.get? identifier) (second.get? identifier)

theorem regular_empty : empty.Regular := by
  intro identifier peer hpeer
  simp at hpeer

theorem Regular.insert {directory : Directory} (hdirectory : directory.Regular) {peer : Peer}
    (hpeer : peer.Regular) : (directory.insert peer).Regular :=
  forall_get?_insert (fun _ _ => Peer.Regular.merge) hdirectory hpeer

theorem joins_empty (directory : Directory) : directory.Joins directory empty := by
  intro identifier
  rw [get?_empty, Option.merge_none_right]

/-- A peer inserted into the second part of a whole is inserted into the whole. -/
theorem Joins.insert {whole first second : Directory} (hwhole : whole.Joins first second)
    (hsecond : second.Regular) {peer : Peer} (hpeer : peer.Regular) :
    (whole.insert peer).Joins first (second.insert peer) := by
  intro identifier
  rw [get?_insert_eq_merge, get?_insert_eq_merge, hwhole]
  split
  next =>
    refine option_merge_assoc fun one two three htwo hthree => ?_
    exact Peer.merge_assoc one (hsecond identifier two htwo).2 (Option.some.inj hthree ▸ hpeer)
  next => rfl

/-- Inserting the peers of one directory into another one, in any order, joins the two. -/
theorem Joins.foldl_insert {whole first second : Directory} (hwhole : whole.Joins first second)
    (hsecond : second.Regular) {peers : List Peer} (hpeers : peers.Perm second.peerList) :
    peers.foldl Directory.insert first = whole := by
  have hkeyed : ∀ identifier (peer : Peer), second.get? identifier = some peer →
      peer.identifier = identifier := fun identifier peer hpeer => (hsecond identifier peer hpeer).1
  have hdistinct : (peers.map Peer.identifier).Nodup :=
    (hpeers.map Peer.identifier).nodup_iff.2 (nodup_keyOf_values hkeyed)
  apply Directory.ext
  intro identifier
  rw [lookup_foldl_put get?_insert_eq_merge hdistinct, find?_values hkeyed hpeers, hwhole]
  rfl

end Directory

end RoutingPolicy

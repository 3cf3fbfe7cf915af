import Mathlib.Tactic.ByContra
import RoutingPolicy.Proofs.Peering.Merge
import RoutingPolicy.Session.Basic

/-!
# Sessions that hold one contribution

After one accepted rule a new session holds one peer with one point and at most one filter.
-/

namespace RoutingPolicy

/-- A peer of which one contribution is known. -/
structure Peer.Single (peer : Peer) (contribution : Contribution) : Prop where
  identifier : peer.identifier = contribution.subject
  point? : ∀ addresses, peer.point? addresses =
    if addresses = contribution.point.addresses then some contribution.point else none
  mem_filters : ∀ ref, ref ∈ peer.filters ↔ ∃ filter, contribution.filter = some filter ∧
    ref = ⟨Fingerprint.ofText filter, contribution.multiprotocol⟩

/-- A session that holds one contribution and nothing else. -/
structure Session.Records (session : Session) (contribution : Contribution) : Prop where
  directory : ∃ peer : Peer, peer.Single contribution ∧ ∀ identifier,
    session.directory.get? identifier =
      if identifier = contribution.subject then some peer else none
  catalog : ∀ fingerprint, session.catalog.get? fingerprint =
    contribution.filter.filter (Fingerprint.ofText · = fingerprint)

theorem Contribution.single_peer (contribution : Contribution) :
    contribution.peer.Single contribution := by
  obtain ⟨subject, filter, multiprotocol, point⟩ := contribution
  refine ⟨?_, ?_, ?_⟩
  · cases filter <;> rfl
  · intro addresses
    have hpoint : ∀ peer : Peer, (∀ addresses, peer.point? addresses = none) →
        (peer.attach point).point? addresses =
          if addresses = point.addresses then some point else none := by
      intro peer hpeer
      rw [Peer.point?_attach, hpeer]
      by_cases heq : point.addresses = addresses
      · rw [if_pos heq, if_pos heq.symm]
      · rw [if_neg heq, if_neg fun h => heq h.symm]
    cases filter with
    | none => exact hpoint _ fun other => Peer.point?_new subject other
    | some filter => exact hpoint _ fun other => by simp
  · intro ref
    cases filter with
    | none => simp [peer, Peer.new, Peer.attach]
    | some filter =>
      show ref ∈ ((Peer.new subject).addFilter _).filters ↔ _
      rw [Peer.mem_filters_addFilter]
      simp [Peer.new]

namespace Session

theorem records_add (autnum : Text) (config : Config) (contribution : Contribution) :
    ((new autnum config).add contribution).Records contribution := by
  have hsingle := contribution.single_peer
  refine ⟨⟨contribution.peer, hsingle, ?_⟩, ?_⟩
  · intro identifier
    show (Directory.empty.insert contribution.peer).get? identifier = _
    rw [Directory.get?_insert, Directory.get?_empty, hsingle.identifier]
    by_cases heq : contribution.subject = identifier
    · rw [if_pos heq, if_pos heq.symm]
    · rw [if_neg heq, if_neg fun h => heq h.symm]
  · intro fingerprint
    cases hfilter : contribution.filter with
    | none => simp [add, hfilter, new]
    | some filter =>
      simp only [add, hfilter, new, Catalog.get?_insert, Catalog.get?_empty, and_true]
      by_cases heq : Fingerprint.ofText filter = fingerprint <;> simp [Option.filter_some, heq]

/-- A session does not hold two contributions of different peers or points. -/
theorem Records.unique {session : Session} {contribution other : Contribution}
    (hcontribution : session.Records contribution) (hother : session.Records other) :
    contribution.subject = other.subject ∧ contribution.point = other.point := by
  obtain ⟨peer, hpeer, hget⟩ := hcontribution.directory
  obtain ⟨same, hsame, hgetSame⟩ := hother.directory
  have hsubject : contribution.subject = other.subject := by
    by_contra hne
    have hnone := (hget contribution.subject).symm.trans (hgetSame contribution.subject)
    rw [if_pos rfl, if_neg hne] at hnone
    exact absurd hnone (by simp)
  have heq := (hget contribution.subject).symm.trans (hgetSame contribution.subject)
  rw [if_pos rfl, if_pos hsubject, Option.some.injEq] at heq
  subst heq
  refine ⟨hsubject, ?_⟩
  have hpoint := (hpeer.point? contribution.point.addresses).symm.trans
    (hsame.point? contribution.point.addresses)
  rw [if_pos rfl] at hpoint
  split at hpoint
  next => exact Option.some.inj hpoint
  next => exact absurd hpoint (by simp)

end Session

end RoutingPolicy

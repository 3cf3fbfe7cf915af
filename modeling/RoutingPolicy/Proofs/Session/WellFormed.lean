import RoutingPolicy.Proofs.Peering.Associativity
import RoutingPolicy.Proofs.Rule.Routers
import RoutingPolicy.Proofs.Rule.Subject
import RoutingPolicy.Proofs.Session.Call
import RoutingPolicy.Proofs.Session.Single

/-!
# Sessions keep their directories well-formed

What a rule contributes is well-formed, whatever its text, because of what the readers of subject,
routers and actions return. So the directory is well-formed after any calls.
-/

namespace RoutingPolicy

namespace Contribution

theorem multiprotocol_point (text : Text) (context : Context) (factor : Factor) :
    (ofRule text context factor).point.multiprotocol = context.multiprotocol := by
  rw [ofRule, PeeringPoint.multiprotocol_addActions?]
  rfl

theorem wellFormed_point (text : Text) (context : Context) (factor : Factor) :
    (ofRule text context factor).point.WellFormed where
  actions direction list hlist := by
    simp only [ofRule, PeeringPoint.actions_addActions?, PeeringPoint.actions_new,
      Option.merge_none_left, Option.filter_eq_some_iff, decide_eq_true_eq] at hlist
    obtain ⟨hlist, hdirection⟩ := hlist
    exact ⟨hdirection, ActionList.nodup_ofRule? hlist, fun _ => ActionList.unbroken_ofRule? hlist⟩
  routers pair hpair := by
    rw [multiprotocol_point]
    rw [ofRule, PeeringPoint.addresses_addActions?] at hpair
    exact AddressPair.isIpv6_of_ofRule? hpair

theorem wellFormed_peer {text : Text} {context : Context} {rule : ParsedRule}
    (hread : ParsedRule.read text context = .ok rule) :
    (ofRule text context rule.factor).peer.WellFormed := by
  have hsingle := (ofRule text context rule.factor).single_peer
  have hpoint := (hsingle.point? _).trans (if_pos rfl)
  refine ⟨?_, ⟨_, _, hpoint⟩, ?_, ?_⟩
  · rw [hsingle.identifier]
    exact (ParsedRule.wellFormed_factor hread).subject
  · intro addresses point hfound
    rw [hsingle.point?] at hfound
    split at hfound
    next heq =>
      rw [← Option.some.inj hfound]
      exact ⟨heq.symm, wellFormed_point text context rule.factor⟩
    next => simp at hfound
  · intro ref href hmultiprotocol
    obtain ⟨filter, -, rfl⟩ := (hsingle.mem_filters ref).1 href
    exact ⟨_, _, hpoint, (multiprotocol_point text context rule.factor).trans hmultiprotocol⟩

end Contribution

/-- Whatever rules contribute has its points and lists in the right places. -/
theorem Request.regular_contributions (requests : List Request) :
    ∀ contribution ∈ requests.filterMap contribution?, contribution.peer.Regular := by
  intro contribution hcontribution
  obtain ⟨request, -, hrequest⟩ := List.mem_filterMap.1 hcontribution
  obtain ⟨rule, hread, rfl⟩ := exists_rule_of_contribution? hrequest
  exact (Contribution.wellFormed_peer hread).regular

namespace Session

theorem wellFormed_new (autnum : Text) (config : Config) :
    (new autnum config).directory.WellFormed := by
  intro identifier peer hpeer
  rw [new, Directory.get?_empty] at hpeer
  exact absurd hpeer.symm (Option.some_ne_none peer)

theorem wellFormed_directory_performAll {session : Session}
    (hsession : session.directory.WellFormed) (calls : List Call) :
    (session.performAll calls).directory.WellFormed := by
  refine @performAll_induction (fun session => session.directory.WellFormed) ?_ _ hsession calls
  intro session request rule hsession hread
  exact hsession.insert (Contribution.wellFormed_peer hread)

/-- The directory is well-formed in every state that calls lead to. -/
theorem wellFormed_performAll (autnum : Text) (config : Config) (calls : List Call) :
    ((new autnum config).performAll calls).directory.WellFormed :=
  wellFormed_directory_performAll (wellFormed_new autnum config) calls

end Session

end RoutingPolicy

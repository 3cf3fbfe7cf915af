import RoutingPolicy.Proofs.Rule.Written
import RoutingPolicy.Proofs.Session.Run
import RoutingPolicy.Proofs.Session.Single

/-!
# Analysing written rules

A session recovers a written rule exactly: subject, filter, family, router addresses and numbered
actions.
-/

namespace RoutingPolicy

namespace WrittenRule

variable (rule : WrittenRule)

/-- The actions in one direction: all of the rule's, if there are any and it has this direction. -/
def actionsIn (direction : Direction) : Option ActionList :=
  if rule.assignments ≠ [] ∧ direction = rule.direction then some ⟨direction, rule.actions⟩
  else none

def point : PeeringPoint :=
  ⟨rule.multiprotocol, rule.addresses, rule.actionsIn .incoming, rule.actionsIn .outgoing⟩

def contribution : Contribution :=
  ⟨rule.subject, if rule.filter = anyFilter then none else some rule.filter, rule.multiprotocol,
    rule.point⟩

theorem point_eq : (PeeringPoint.new rule.multiprotocol rule.addresses).addActions?
    (if rule.assignments = [] then none else some ⟨rule.direction, rule.actions⟩) =
      rule.point := by
  rw [point, actionsIn, actionsIn]
  by_cases hassignments : rule.assignments = []
  · rw [if_pos hassignments, if_neg (by simp [hassignments]), if_neg (by simp [hassignments])]
    rfl
  · rw [if_neg hassignments]
    cases hdirection : rule.direction with
    | incoming => rw [if_pos ⟨hassignments, rfl⟩, if_neg (by simp)]; rfl
    | outgoing => rw [if_neg (by simp), if_pos ⟨hassignments, rfl⟩]; rfl

theorem ofRule_toText (requested : IpVersions) :
    Contribution.ofRule rule.toText (rule.context requested) ⟨rule.subject, rule.filter⟩ =
      rule.contribution := by
  rw [Contribution.ofRule, contribution, multiprotocol_context, direction_context,
    actionBoundary_context, addresses_toText, actions_toText, point_eq, Factor.isAny]
  simp only [beq_iff_eq]

end WrittenRule

namespace Session

/-- Writing a rule and analysing it recovers the rule. It is read with all its parts, it is accepted
exactly if its family is one of those asked for, and then a new session holds just what it says. -/
theorem analyse_toText (rule : WrittenRule) (requested : IpVersions) (autnum : Text)
    (config : Config) :
    ParsedRule.read rule.toText (rule.context requested) =
        .ok ⟨rule.family, rule.direction, rule.multiprotocol, rule.subject, rule.filter⟩ ∧
      let result := (new autnum config).analyse rule.toText (rule.context requested)
      if rule.family.acceptedBy requested then
        result.1 = .ok (.accepted rule.subject) ∧ result.2.Records rule.contribution
      else result = (.ok (.mismatch rule.family), new autnum config) := by
  have hread := rule.read_toText requested
  have hrequested : (rule.context requested).requested = requested := rfl
  refine ⟨hread, ?_⟩
  rw [analyse_of_read _ hread, hrequested]
  simp only [rule.ofRule_toText]
  split
  · exact ⟨rfl, records_add autnum config rule.contribution⟩
  · rfl

end Session

end RoutingPolicy

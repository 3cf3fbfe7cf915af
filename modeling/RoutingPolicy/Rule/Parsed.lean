import RoutingPolicy.Rule.Context
import RoutingPolicy.Rule.Factor

/-!
# Parsed rules

Reading one rule: its address family comes off the front, the rest is decomposed, and the parts give
subject and filter.
-/

namespace RoutingPolicy

/-- What one rule says. -/
structure ParsedRule where
  family : AddressFamily
  direction : Direction
  multiprotocol : Bool
  factor : Factor
deriving DecidableEq

namespace ParsedRule

/-- The address family of a rule and the text after it. Only multiprotocol rules name one. -/
def splitFamily (text : Text) (context : Context) : AddressFamily × Text :=
  if context.multiprotocol then AddressFamily.resolve text else (.ipv4Unicast, text)

/-- Reads a rule. -/
def read (text : Text) (context : Context) : Except RuleError ParsedRule :=
  let (family, body) := splitFamily text context
  match decompose body context.isDefault with
  | .error error => .error error
  | .ok decomposition =>
    match Factor.read decomposition.factor (decomposition.filterClause.getD []) with
    | .error error => .error error
    | .ok factor => .ok ⟨family, context.direction, context.multiprotocol, factor⟩

/-- What is left of a rule behind its family has been decomposed, and the factor comes from the parts. -/
theorem exists_parts_of_read {text : Text} {context : Context} {rule : ParsedRule}
    (hread : read text context = .ok rule) : ∃ decomposition,
      decompose (splitFamily text context).2 context.isDefault = .ok decomposition ∧
      Factor.read decomposition.factor (decomposition.filterClause.getD []) = .ok rule.factor := by
  unfold read at hread
  simp only at hread
  split at hread
  next => simp at hread
  next decomposition hdecompose =>
    split at hread
    next => simp at hread
    next factor hfactor =>
      cases hread
      exact ⟨decomposition, hdecompose, hfactor⟩

end ParsedRule

end RoutingPolicy

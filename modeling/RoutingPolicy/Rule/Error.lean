import RoutingPolicy.Text.Basic

/-!
# Why a rule cannot be read

The causes for which a policy rule is refused, and their wording.
-/

namespace RoutingPolicy

/-- A cause for refusing a rule. -/
inductive RuleError where
  /-- The braces of the rule do not balance. -/
  | unbalancedBraces (rule : Text)
  /-- The part before the filter names no peer. -/
  | missingFactor (selector rule : Text)
  /-- Factor and filter clause fit none of the rule forms. -/
  | unmatchedFactor (factor : Text)
deriving DecidableEq

namespace RuleError

def message : RuleError → Text
  | unbalancedBraces rule => "brace count does not fit in rule: ".toList ++ rule
  | missingFactor selector rule =>
    "cannot find filter factors in '".toList ++ selector ++ "' in rule: ".toList ++ rule
  | unmatchedFactor factor => "cannot parse factor: ".toList ++ factor

/-- Whether the rule could not be split into selector and filter. -/
def isDecompositionError : RuleError → Bool
  | unbalancedBraces _ | missingFactor _ _ => true
  | unmatchedFactor _ => false

/-- Whether no rule form fits. -/
def isGrammarError : RuleError → Bool
  | unmatchedFactor _ => true
  | _ => false

end RuleError

end RoutingPolicy

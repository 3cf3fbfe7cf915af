import RoutingPolicy.Filter.Catalog
import RoutingPolicy.Peering.Directory
import RoutingPolicy.Rule.Parsed
import RoutingPolicy.Rule.Routers

/-!
# What a rule contributes

A rule that applies to the requested IP versions contributes a peer with one peering point and at
most one filter to the model. This depends on the rule alone and not on what was read before it.
-/

namespace RoutingPolicy

/-- What one rule adds to the peering model. -/
structure Contribution where
  subject : Text
  /-- The filter; absent if every route passes. -/
  filter : Option Text
  multiprotocol : Bool
  point : PeeringPoint
deriving DecidableEq

namespace Contribution

def ofRule (text : Text) (context : Context) (factor : Factor) : Contribution where
  subject := factor.subject
  filter := if factor.isAny then none else some factor.filter
  multiprotocol := context.multiprotocol
  point :=
    (PeeringPoint.new context.multiprotocol
      (AddressPair.ofRule? text context.multiprotocol)).addActions?
        (ActionList.ofRule? text context.direction context.actionBoundary)

def peer (contribution : Contribution) : Peer :=
  let peer := Peer.new contribution.subject
  let peer := match contribution.filter with
    | none => peer
    | some filter => peer.addFilter ⟨Fingerprint.ofText filter, contribution.multiprotocol⟩
  peer.attach contribution.point

end Contribution

/-- What a rule that can be read amounts to. -/
inductive Analysis where
  /-- The rule adds to the model. -/
  | contribution (contribution : Contribution)
  /-- The rule is for another address family. -/
  | mismatch (family : AddressFamily) (subject : Text)
deriving DecidableEq

namespace Analysis

def ofRule (text : Text) (context : Context) : Except RuleError Analysis :=
  match ParsedRule.read text context with
  | .error error => .error error
  | .ok rule =>
    if rule.family.acceptedBy context.requested then
      .ok (.contribution (Contribution.ofRule text context rule.factor))
    else .ok (.mismatch rule.family rule.factor.subject)

end Analysis

end RoutingPolicy

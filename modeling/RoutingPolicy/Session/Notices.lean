import RoutingPolicy.Rule.Notice
import RoutingPolicy.Session.Basic

/-!
# Notices of a session

What a session tells while it reads. The notices about a rule depend on the rule and on the peers
that the session knows when it reads it.
-/

namespace RoutingPolicy

namespace Notice

def ofDecomposition (text : Text) (isDefault : Bool) : List Notice :=
  let rule := Text.trim text
  match Decomposition.expression? rule with
  | some expression =>
    if Decomposition.missesFilter expression isDefault then [.filterMissing expression rule] else []
  | none => []

def ofParsing (text : Text) (context : Context) : List Notice :=
  ofDecomposition (ParsedRule.splitFamily text context).2 context.isDefault

/-- The notice about a rule with an `AT` but without a pair of addresses around it. -/
def ofRouters (text : Text) (multiprotocol : Bool) : List Notice :=
  let tokens := tokenize text
  if tokens.any (·.isKeyword .atRouter) && (AddressPair.ofRule? text multiprotocol).isNone then
    [.addressesRejected (AddressPair.remoteText? tokens) (AddressPair.localText? tokens)
      multiprotocol]
  else []

end Notice

namespace Session

def analyseNotices (session : Session) (text : Text) (context : Context) : List Notice :=
  Notice.ofParsing text context ++
    match Analysis.ofRule text context with
    | .error _ => []
    | .ok (.mismatch family subject) => [.skipped family subject context.requested text]
    | .ok (.contribution contribution) =>
      (if session.directory.contains contribution.subject then []
        else [.newPeer contribution.subject]) ++
        Notice.ofRouters text context.multiprotocol

def attributeNotices (session : Session) (item : ObjectAttribute) : List Notice :=
  match session.config.contextFor? item.name with
  | none => []
  | some context =>
    let text := Text.upper item.value
    session.analyseNotices text context ++
      match (session.analyse text context).1 with
      | .ok _ => []
      | .error cause => [.failed item.name item.value cause]

def attributesNotices (session : Session) : List ObjectAttribute → List Notice
  | [] => []
  | item :: items =>
    session.attributeNotices item ++ (session.readAttribute item).2.attributesNotices items

def policyNotices (session : Session) (text : Text) : List Notice :=
  match Markup.Element.ofText? text with
  | none => []
  | some root =>
    .reading session.autnum :: session.attributesNotices (Export.policyAttributes root)

end Session

end RoutingPolicy

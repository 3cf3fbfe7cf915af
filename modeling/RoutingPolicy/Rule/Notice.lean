import RoutingPolicy.Log
import RoutingPolicy.Rule.Error
import RoutingPolicy.Rule.Family
import RoutingPolicy.Text.Quoted

/-!
# Notices about rules

What is worth telling while rules are read, and how it is worded.
-/

namespace RoutingPolicy

/-- Something worth telling about a rule or a policy. -/
inductive Notice where
  /-- A rule that is no default rule has no filter. -/
  | filterMissing (expression rule : Text)
  /-- A rule is for other IP versions than those asked for. -/
  | skipped (family : AddressFamily) (subject : Text) (requested : IpVersions) (rule : Text)
  /-- A rule names a peer for the first time. -/
  | newPeer (subject : Text)
  /-- A rule has no pair of addresses around its `AT`. -/
  | addressesRejected (remote localEnd : Option Text) (multiprotocol : Bool)
  | reading (autnum : Text)
  /-- An attribute of a policy holds no rule. -/
  | failed (name value : Text) (cause : RuleError)
deriving DecidableEq

namespace Notice

def entry : Notice → LogEntry
  | filterMissing expression rule =>
    ⟨.warn, "syntax error: cannot find selectors in '".toList ++ expression ++
      "' decomposing expression: ".toList ++ rule⟩
  | skipped family subject requested rule =>
    ⟨.debug, "skipping ".toList ++ family.name ++ " rule for ".toList ++ subject ++
      " (requested ".toList ++ requested.shown ++ "): ".toList ++ rule⟩
  | newPeer subject => ⟨.debug, "new peering found (".toList ++ subject ++ [')']⟩
  | addressesRejected remote localEnd multiprotocol =>
    ⟨.debug, "rejecting peering addresses remote=".toList ++ Text.quoted? remote ++
      " local=".toList ++ Text.quoted? localEnd ++ " (multiprotocol: ".toList ++
      (if multiprotocol then "true)".toList else "false)".toList)⟩
  | reading autnum => ⟨.debug, "will parse policy for ".toList ++ autnum⟩
  | failed name value cause =>
    ⟨.warn, "failed to parse ".toList ++ name ++ [' ', '{'] ++ value ++ ['}', ':', ' '] ++
      cause.message⟩

end Notice

end RoutingPolicy

import RoutingPolicy.Export.Object
import RoutingPolicy.Session.Contribution
import RoutingPolicy.Text.Upper

/-!
# Analysis sessions

A session reads the policy of one system, rule by rule, and collects the peers in a directory and
the filters in a catalog. A rule that cannot be read, or that is for another address family, leaves
both as they are.
-/

namespace RoutingPolicy

/-- The state of reading one policy. -/
structure Session where
  autnum : Text
  config : Config
  directory : Directory
  catalog : Catalog

/-- What became of a rule. -/
inductive Outcome where
  /-- The rule was added to the model under its subject. -/
  | accepted (subject : Text)
  /-- The rule is for another address family and was skipped. -/
  | mismatch (family : AddressFamily)
deriving DecidableEq

/-- How many rules were accepted, skipped and refused. -/
structure Summary where
  accepted : Nat
  mismatched : Nat
  failed : Nat
deriving DecidableEq

namespace Summary

def zero : Summary := ⟨0, 0, 0⟩

def count (summary : Summary) : Except RuleError Outcome → Summary
  | .ok (.accepted _) => { summary with accepted := summary.accepted + 1 }
  | .ok (.mismatch _) => { summary with mismatched := summary.mismatched + 1 }
  | .error _ => { summary with failed := summary.failed + 1 }

end Summary

namespace Session

def new (autnum : Text) (config : Config) : Session := ⟨autnum, config, .empty, .empty⟩

def add (session : Session) (contribution : Contribution) : Session where
  autnum := session.autnum
  config := session.config
  directory := session.directory.insert contribution.peer
  catalog :=
    match contribution.filter with
    | none => session.catalog
    | some filter => session.catalog.insert filter

/-- Analyses a rule and adds what it contributes. -/
def analyse (session : Session) (text : Text) (context : Context) :
    Except RuleError Outcome × Session :=
  match Analysis.ofRule text context with
  | .error error => (.error error, session)
  | .ok (.mismatch family _) => (.ok (.mismatch family), session)
  | .ok (.contribution contribution) =>
    (.ok (.accepted contribution.subject), session.add contribution)

/-- Analyses an attribute of a policy, in capital letters, if the session reads its kind. -/
def readAttribute (session : Session) (item : ObjectAttribute) :
    Option (Except RuleError Outcome) × Session :=
  match session.config.contextFor? item.name with
  | none => (none, session)
  | some context =>
    let (outcome, session) := session.analyse (Text.upper item.value) context
    (some outcome, session)

/-- Analyses the attributes of a policy in order and counts the outcomes. -/
def readAttributes (session : Session) (summary : Summary) :
    List ObjectAttribute → Summary × Session
  | [] => (summary, session)
  | item :: items =>
    let (outcome, session) := session.readAttribute item
    session.readAttributes (outcome.elim summary summary.count) items

/-- Reads the policy in a registry export of which the root element is given. -/
def readTree (session : Session) (root : Markup.Element) : Summary × Session :=
  session.readAttributes .zero (Export.policyAttributes root)

/-- Reads the policy in the text of a registry export. A document that is not well-formed has no
summary and changes nothing. -/
def readPolicy (session : Session) (text : Text) : Option Summary × Session :=
  match Markup.Element.ofText? text with
  | none => (none, session)
  | some root =>
    let (summary, session) := session.readTree root
    (some summary, session)

end Session

end RoutingPolicy

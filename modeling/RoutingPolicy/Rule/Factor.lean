import RoutingPolicy.Rule.Decomposition

/-!
# Subject and filter of a rule

Factor and filter clause together fit one of three forms: an import (`FROM` … `ACCEPT` …), an export
(`TO` … `ANNOUNCE` …) or a default (`TO` … `NETWORKS` …), tried in this order. The subject is the
word after the leading keyword, the filter what follows the last keyword that can introduce one.
-/

namespace RoutingPolicy

/-- The peer that a rule names and the filter it applies. -/
structure Factor where
  subject : Text
  filter : Text
deriving DecidableEq

namespace Factor

/-- The factor that lets every route of a peer pass. -/
def any (subject : Text) : Factor := ⟨subject, anyFilter⟩

def isAny (factor : Factor) : Bool := factor.filter == anyFilter

/-- A rule form: a leading keyword, the keyword before the filter, and whether the filter may be
missing although something follows the subject. -/
structure Form where
  lead : Keyword
  boundary : Keyword
  openTail : Bool
deriving DecidableEq

def Form.importing : Form := ⟨.fromPeer, .accept, false⟩

def Form.exporting : Form := ⟨.toPeer, .announce, false⟩

def Form.default : Form := ⟨.toPeer, .networks, true⟩

/-- The forms in the order in which they are tried. -/
def forms : List Form := [.importing, .exporting, .default]

/-- The factor that a text makes under a form. The filter starts after the last boundary keyword
that is not the last token. -/
def Form.read? (form : Form) (text : Text) (tokens : List Token) : Option Factor :=
  match tokens with
  | lead :: subject :: tail =>
    if lead.isKeyword form.lead && subject.kind == .word then
      if tail = [] then some (Factor.any subject.text)
      else match Token.last? form.boundary tail.dropLast with
        | some token => some ⟨subject.text, Text.trim (Text.dropBytes token.stop text)⟩
        | none => if form.openTail then some (Factor.any subject.text) else none
    else none
  | _ => none

/-- A text without one final semicolon and the blanks before it. -/
def dropSemicolon (text : Text) : Text :=
  if text.getLast? = some ';' then Text.trimEnd text.dropLast else text

/-- The text that has to fit a form: factor and filter clause, without one final semicolon. -/
def joined (factor filterClause : Text) : Text :=
  dropSemicolon (Text.trim (factor ++ [' '] ++ filterClause))

def read (factor filterClause : Text) : Except RuleError Factor :=
  let text := joined factor filterClause
  let tokens := tokenize text
  match forms.findSome? fun form => form.read? text tokens with
  | some result => .ok result
  | none => .error (.unmatchedFactor text)

end Factor

end RoutingPolicy

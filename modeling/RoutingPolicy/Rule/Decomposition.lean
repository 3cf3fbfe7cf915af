import RoutingPolicy.Rule.Error
import RoutingPolicy.Rule.Token

/-!
# Decomposition of a rule

A rule names a peer and a filter. Of `{ from AS1 accept ANY; } refine { ... }` only the first brace
group counts. What is left is split at its first filter keyword, where `ACCEPT` is looked for before
`ANNOUNCE`, and `NETWORKS` last; the text before that is the selector, and the peer is what follows
the last `FROM` of the selector or, if it has none, its last `TO`.
-/

namespace RoutingPolicy

structure Decomposition where
  /-- The peering part, such as `FROM AS1 AT 10.0.0.1`. -/
  factor : Text
  /-- The filter with its keyword, such as `ACCEPT AS-FOO`; absent if the rule has none. -/
  filterClause : Option Text
deriving DecidableEq

/-- The filter that matches every route. -/
def anyFilter : Text := "ANY".toList

namespace Decomposition

/-- Scans the tokens of `text` from a brace depth on. A leading group ends where the depth returns
to zero, and `REFINE` or `EXCEPT` cuts off all that follows; otherwise the braces must balance. -/
def scanGroup (text : Text) (grouped : Bool) : Int → List Token → Option Text
  | depth, [] => if depth = 0 then some text else none
  | depth, token :: tokens =>
    match token.kind with
    | .openBrace => scanGroup text grouped (depth + 1) tokens
    | .closeBrace =>
      if grouped && depth - 1 == 0 then some (Text.trim (Text.takeBytes token.start text).tail)
      else scanGroup text grouped (depth - 1) tokens
    | .keyword .refine | .keyword .except => some (Text.trim (Text.takeBytes token.start text))
    | _ => scanGroup text grouped depth tokens

def isGrouped (tokens : List Token) : Bool :=
  tokens.head?.any (·.kind == .openBrace)

/-- The part of a trimmed rule that counts: the inside of a leading group, or what stands before the
first `REFINE` or `EXCEPT`, or all of it. -/
def expression? (text : Text) : Option Text :=
  let tokens := tokenize text
  scanGroup text (isGrouped tokens) 0 tokens

/-- The keywords that introduce a filter, in the order in which they are looked for. -/
def filterKeywords : List Keyword := [.accept, .announce, .networks]

/-- The first token of the most preferred filter keyword that occurs, with that keyword. -/
def filterToken? (tokens : List Token) : Option (Keyword × Token) :=
  filterKeywords.findSome? fun keyword => (Token.first? keyword tokens).map (keyword, ·)

def clause (keyword : Keyword) (text : Text) : Text :=
  if text = [] then keyword.name else keyword.name ++ [' '] ++ text

/-- Selector and filter clause of an expression. In a default rule a missing filter means `ANY`. -/
def splitFilter (expression : Text) (isDefault : Bool) : Text × Option Text :=
  match filterToken? (tokenize expression) with
  | some (keyword, token) =>
    (Text.takeBytes token.start expression,
      some (clause keyword (Text.trim (Text.dropBytes token.stop expression))))
  | none => (expression, if isDefault then some anyFilter else none)

/-- The factor of a selector: the last `FROM`, or else the last `TO`, and what follows it. -/
def factor? (selector : Text) : Option Text :=
  [Keyword.fromPeer, Keyword.toPeer].findSome? fun keyword =>
    (Token.last? keyword (tokenize selector)).map fun token =>
      clause keyword (Text.trim (Text.dropBytes token.stop selector))

/-- Whether the expression lacks a filter that the rule should have. -/
def missesFilter (expression : Text) (isDefault : Bool) : Bool :=
  (splitFilter expression isDefault).2.isNone

end Decomposition

def decompose (text : Text) (isDefault : Bool) : Except RuleError Decomposition :=
  let rule := Text.trim text
  match Decomposition.expression? rule with
  | none => .error (.unbalancedBraces rule)
  | some expression =>
    let (selector, filterClause) := Decomposition.splitFilter expression isDefault
    match Decomposition.factor? selector with
    | none => .error (.missingFactor (Text.trim selector) rule)
    | some factor => .ok ⟨factor, filterClause⟩

end RoutingPolicy

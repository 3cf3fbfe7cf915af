import RoutingPolicy.Rule.Context
import RoutingPolicy.Rule.Token
import RoutingPolicy.Text.Numeral

/-!
# Actions of a rule

The action clause of a rule is a sequence of assignments such as `pref = 100; med = 5;`. An action
keeps the position of its statement in the clause; statements that assign nothing are left out.
-/

namespace RoutingPolicy

/-- How an action sets its attribute. -/
inductive Operator where
  | assign
  | appendAssign
deriving DecidableEq

def Operator.toText : Operator → Text
  | assign => ['=']
  | appendAssign => ['.', '=']

/-- One assignment of an action clause. -/
structure Action where
  /-- The position of the statement in its clause, from zero. -/
  sequence : Nat
  name : Text
  operator : Operator
  value : Text
deriving DecidableEq

namespace Action

def toText (action : Action) : Text :=
  action.name ++ action.operator.toText ++ action.value

/-- Whether a character of a statement counts: blanks and braces do not. -/
def isSignificant (c : Char) : Bool := !Text.isBlank c && c != '{' && c != '}'

/-- Reads the statement at a position. The first `.=` divides it, or else the first `=`. -/
def ofStatement? (sequence : Nat) (statement : Text) : Option Action :=
  let significant := statement.filter isSignificant
  match Text.splitAt? Operator.appendAssign.toText significant with
  | some (name, value) => some ⟨sequence, name, .appendAssign, value⟩
  | none =>
    (Text.splitAt? Operator.assign.toText significant).map fun (name, value) =>
      ⟨sequence, name, .assign, value⟩

/-- The actions of statements whose first one has the given position. -/
def ofStatements (sequence : Nat) : List Text → List Action
  | [] => []
  | statement :: statements =>
    (ofStatement? sequence statement).toList ++ ofStatements (sequence + 1) statements

end Action

structure ActionList where
  direction : Direction
  actions : List Action
deriving DecidableEq

namespace ActionList

/-- Adds an action at the end unless it is already there. -/
def add (actions : List Action) (action : Action) : List Action :=
  if action ∈ actions then actions else actions ++ [action]

def merge (list other : ActionList) : ActionList :=
  { list with actions := other.actions.foldl add list.actions }

/-- The action clause of a rule: what stands between the first `ACTION` and the last boundary
keyword after it, or the end. -/
def clause? (text : Text) (boundary : Keyword) : Option Text :=
  match (tokenize text).dropWhile (!·.isKeyword .action) with
  | [] => none
  | action :: later =>
    let body := match Token.last? boundary later with
      | some token => Text.takeBytes token.start text
      | none => text
    some (Text.dropBytes action.stop body)

/-- The actions of a rule, if it has an action clause. -/
def ofRule? (text : Text) (direction : Direction) (boundary : Keyword) : Option ActionList :=
  (clause? text boundary).map fun clause =>
    ⟨direction, Action.ofStatements 0 (Text.splitOn ';' clause)⟩

end ActionList

end RoutingPolicy

import RoutingPolicy.Proofs.Checked.Rule
import RoutingPolicy.Proofs.Rule.Routers
import RoutingPolicy.Session.Basic

/-!
# Analysis by checked slices

The readers of router addresses and actions with the cuts that they make, and the analysis of a rule
as a whole. No text makes any of these cuts fail.
-/

namespace RoutingPolicy

open Text

namespace Checked

variable {text : Text}

/-! ### Router addresses -/

def containsKeyword? (text : Text) (keyword : Keyword) : Option Bool := do
  let tokens ← tokenize? text
  return (Token.firstIndex? keyword tokens).isSome

/-- The text of the token in front of an index. -/
def textBefore? (text : Text) (tokens : List Token) (index : Nat) : Option (Option Text) :=
  match index.ppred.bind fun before => tokens[before]? with
  | some token => (textOf? text token).map some
  | none => some none

/-- Where the peering of a rule ends: at its actions, or else at its filter, or else at its end. -/
def peeringEnd (tokens : List Token) : Nat :=
  ((Token.firstIndex? .action tokens).or
    (tokens.findIdx? AddressPair.isFilterToken)).getD tokens.length

def routers? (text : Text) (multiprotocol : Bool) : Option (Option AddressPair) := do
  let tokens ← tokenize? text
  match Token.firstIndex? .atRouter tokens with
  | none => return none
  | some router =>
    let remoteText ← textBefore? text tokens router
    let localText ← textBefore? text tokens (peeringEnd tokens)
    return do
      let remote ← remoteText.bind (Address.read? .strict multiprotocol)
      let localEnd ← localText.bind (Address.read? .strict multiprotocol)
      return ⟨localEnd, remote⟩

theorem containsKeyword?_eq (text : Text) (keyword : Keyword) :
    containsKeyword? text keyword = some (containsKeyword text keyword) := by
  rw [containsKeyword?, tokenize?_eq, containsKeyword]
  exact congrArg some List.findIdx?_isSome

theorem textBefore?_eq (stop : Token → Bool) :
    textBefore? text (tokenize text) ((tokenize text).findIdx stop) =
      some (AddressPair.textBefore? stop (tokenize text)) := by
  have hle := @List.findIdx_le_length _ stop (tokenize text)
  rw [AddressPair.textBefore?, List.takeWhile_eq_take_findIdx_not, List.getLast?_take]
  simp only [Bool.not_not]
  cases hindex : (tokenize text).findIdx stop with
  | zero => rfl
  | succ before =>
    have hlt : before < (tokenize text).length := by omega
    have hget := List.getElem?_eq_getElem hlt
    rw [textBefore?, Nat.ppred_succ, Option.bind_some, if_neg (Nat.succ_ne_zero before),
      Nat.add_sub_cancel, hget, Option.some_or, Option.map_some]
    simp only [textOf?_eq (List.getElem_mem hlt), Option.map_some]

theorem findIdx_eq {keyword : Keyword} {tokens : List Token} {index : Nat}
    (hindex : Token.firstIndex? keyword tokens = some index) :
    tokens.findIdx (Token.isKeyword keyword) = index := by
  rw [List.findIdx_eq_getD_findIdx?, ← Token.firstIndex?, hindex, Option.getD_some]

theorem any_isKeyword (keyword : Keyword) (tokens : List Token) :
    tokens.any (Token.isKeyword keyword) = (Token.firstIndex? keyword tokens).isSome :=
  List.findIdx?_isSome.symm

theorem textBefore?_peeringEnd (text : Text) :
    textBefore? text (tokenize text) (peeringEnd (tokenize text)) =
      some (AddressPair.localText? (tokenize text)) := by
  rw [peeringEnd, AddressPair.localText?, any_isKeyword]
  cases haction : Token.firstIndex? .action (tokenize text) with
  | none =>
    rw [Option.none_or, ← List.findIdx_eq_getD_findIdx?, textBefore?_eq]
    rfl
  | some index =>
    rw [Option.some_or, Option.getD_some, ← findIdx_eq haction, textBefore?_eq]
    rfl

theorem routers?_eq (text : Text) (multiprotocol : Bool) :
    routers? text multiprotocol = some (AddressPair.ofRule? text multiprotocol) := by
  rw [routers?, tokenize?_eq, AddressPair.ofRule?]
  simp only [Option.bind_eq_bind, Option.bind_some, any_isKeyword]
  cases hrouter : Token.firstIndex? .atRouter (tokenize text) with
  | none => rfl
  | some router =>
    simp only [← findIdx_eq hrouter, textBefore?_eq, textBefore?_peeringEnd, Option.bind_some]
    rfl

/-! ### Actions -/

def clause? (text : Text) (boundary : Keyword) : Option (Option Text) := do
  let tokens ← tokenize? text
  match Token.firstIndex? .action tokens with
  | none => return none
  | some index =>
    let action ← tokens[index]?
    let later ← tokensFrom? (index + 1) tokens
    let stop := match Token.first? boundary later.reverse with
      | some token => token.start
      | none => byteSize text
    let clause ← slice? action.stop stop text
    return some clause

def actions? (text : Text) (direction : Direction) (boundary : Keyword) :
    Option (Option ActionList) := do
  let clause ← clause? text boundary
  return clause.map fun clause => ⟨direction, Action.ofStatements 0 (splitOn ';' clause)⟩

theorem clause?_eq (text : Text) (boundary : Keyword) :
    clause? text boundary = some (ActionList.clause? text boundary) := by
  rw [clause?, tokenize?_eq, ActionList.clause?, List.dropWhile_eq_drop_findIdx_not]
  simp only [Option.bind_eq_bind, Option.bind_some, Bool.not_not]
  cases hindex : Token.firstIndex? .action (tokenize text) with
  | none =>
    have hnone : (tokenize text).drop ((tokenize text).findIdx (Token.isKeyword .action)) = [] := by
      rw [List.findIdx_eq_getD_findIdx?, ← Token.firstIndex?, hindex, Option.getD_none,
        List.drop_length]
    simp only [hnone]
    rfl
  | some index =>
    obtain ⟨hlt, -⟩ := List.findIdx?_eq_some_iff_getElem.1 hindex
    have htokens := (List.take_append_drop index (tokenize text)).symm
    rw [List.drop_eq_getElem_cons hlt] at htokens
    have haction := isBoundary_stop (List.getElem_mem hlt)
    simp only [findIdx_eq hindex, List.drop_eq_getElem_cons hlt, List.getElem?_eq_getElem hlt,
      tokensFrom?_eq hlt, Option.bind_some, first?_reverse]
    cases hlast : Token.last? boundary ((tokenize text).drop (index + 1)) with
    | none =>
      have hslice : slice? _ (byteSize text) text = _ := sliceFrom?_of_isBoundary haction
      simp only [hslice, Option.bind_some]
      rfl
    | some token =>
      have htoken := Token.mem_of_last? hlast
      have hstart := isBoundary_start (List.mem_of_mem_drop htoken)
      simp only [slice?_eq_some (stop_le_start htokens htoken) haction hstart, Option.bind_some]
      rfl

theorem actions?_eq (text : Text) (direction : Direction) (boundary : Keyword) :
    actions? text direction boundary = some (ActionList.ofRule? text direction boundary) := by
  rw [actions?, clause?_eq, ActionList.ofRule?]
  rfl

/-! ### The analysis of a rule -/

/-- The analysis looks for router addresses only in a rule that has an `AT`. -/
def routersIfAny? (text : Text) (multiprotocol : Bool) : Option (Option AddressPair) := do
  if ← containsKeyword? text .atRouter then routers? text multiprotocol else return none

def contribution? (text : Text) (context : Context) (factor : Factor) :
    Option Contribution := do
  let routers ← routersIfAny? text context.multiprotocol
  let actions ← actions? text context.direction context.actionBoundary
  return {
    subject := factor.subject
    filter := if factor.isAny then none else some factor.filter
    multiprotocol := context.multiprotocol
    point := (PeeringPoint.new context.multiprotocol routers).addActions? actions }

def analysis? (text : Text) (context : Context) : Option (Except RuleError Analysis) := do
  match ← readRule? text context with
  | .error error => return .error error
  | .ok rule =>
    if rule.family.acceptedBy context.requested then
      let contribution ← contribution? text context rule.factor
      return .ok (.contribution contribution)
    else return .ok (.mismatch rule.family rule.factor.subject)

def analyse? (session : Session) (text : Text) (context : Context) :
    Option (Except RuleError Outcome × Session) := do
  match ← analysis? text context with
  | .error error => return (.error error, session)
  | .ok (.mismatch family _) => return (.ok (.mismatch family), session)
  | .ok (.contribution contribution) =>
    return (.ok (.accepted contribution.subject), session.add contribution)

theorem routersIfAny?_eq (text : Text) (multiprotocol : Bool) :
    routersIfAny? text multiprotocol = some (AddressPair.ofRule? text multiprotocol) := by
  rw [routersIfAny?, containsKeyword?_eq]
  simp only [Option.bind_eq_bind, Option.bind_some]
  split
  next => exact routers?_eq text multiprotocol
  next hnone =>
    rw [AddressPair.ofRule?_eq_none multiprotocol (Bool.of_not_eq_true hnone)]
    rfl

theorem contribution?_eq (text : Text) (context : Context) (factor : Factor) :
    contribution? text context factor = some (Contribution.ofRule text context factor) := by
  rw [contribution?, routersIfAny?_eq]
  simp only [Option.bind_eq_bind, Option.bind_some, actions?_eq]
  rfl

theorem analysis?_eq (text : Text) (context : Context) :
    analysis? text context = some (Analysis.ofRule text context) := by
  rw [analysis?, readRule?_eq, Analysis.ofRule]
  simp only [Option.bind_eq_bind, Option.bind_some]
  cases ParsedRule.read text context with
  | error error => rfl
  | ok rule =>
    simp only [contribution?_eq, Option.bind_some]
    split <;> rfl

/-- Whatever the text of a rule is and however it is interpreted, all cuts made while it is analysed
are in range, and the analysis gives what it gives without checks. -/
theorem analyse?_eq_some (session : Session) (text : Text) (context : Context) :
    analyse? session text context = some (session.analyse text context) := by
  rw [analyse?, analysis?_eq, Session.analyse]
  simp only [Option.bind_eq_bind, Option.bind_some]
  cases Analysis.ofRule text context with
  | error error => rfl
  | ok analysis => cases analysis <;> rfl

end Checked

end RoutingPolicy

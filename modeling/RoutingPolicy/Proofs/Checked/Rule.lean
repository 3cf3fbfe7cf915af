import Mathlib.Data.Nat.PSub
import RoutingPolicy.Proofs.Checked.Token
import RoutingPolicy.Proofs.Rule.Decomposition
import RoutingPolicy.Rule.Parsed

/-!
# Rules read by checked slices

The readers that find the address family of a rule, its peer and its filter, with the cuts that they
make. All of these cuts are in range, whatever the text is. Most positions are those of a token of the
text that is cut there. The inside of a leading group starts at byte one, which is behind the brace
since the text has been trimmed; and as many bytes as `AFI` has are cut off only from a text that is
known to begin with as many.
-/

namespace RoutingPolicy

open Text

namespace Checked

/-! ### Decomposition -/

def scanGroup? (text : Text) (grouped : Bool) : Int → List Token → Option (Option Text)
  | depth, [] => some (if depth = 0 then some text else none)
  | depth, token :: tokens =>
    match token.kind with
    | .openBrace => scanGroup? text grouped (depth + 1) tokens
    | .closeBrace =>
      if grouped && depth - 1 == 0 then
        (slice? 1 token.start text).map fun inside => some (trim inside)
      else scanGroup? text grouped (depth - 1) tokens
    | .keyword .refine | .keyword .except =>
      (sliceTo? token.start text).map fun front => some (trim front)
    | _ => scanGroup? text grouped depth tokens

def expression? (text : Text) : Option (Option Text) := do
  let tokens ← tokenize? text
  scanGroup? text (Decomposition.isGrouped tokens) 0 tokens

def filterToken? (tokens : List Token) : Option (Option (Keyword × Token)) :=
  Decomposition.filterKeywords.findSomeM? fun keyword => do
    let token ← tokenAt? tokens (Token.firstIndex? keyword tokens)
    return token.map (keyword, ·)

def splitFilter? (expression : Text) (isDefault : Bool) : Option (Text × Option Text) := do
  let tokens ← tokenize? expression
  match ← filterToken? tokens with
  | some (keyword, token) =>
    let filter ← sliceFrom? token.stop expression
    let selector ← sliceTo? token.start expression
    return (selector, some (Decomposition.clause keyword (trim filter)))
  | none => return (expression, if isDefault then some anyFilter else none)

/-- The clause that the last token of a keyword begins. -/
def lastClause? (selector : Text) (tokens : List Token) (keyword : Keyword) :
    Option (Option Text) := do
  match ← tokenAt? tokens (Token.lastIndex? keyword tokens) with
  | some token =>
    let subject ← sliceFrom? token.stop selector
    return some (Decomposition.clause keyword (trim subject))
  | none => return none

def factor? (selector : Text) : Option (Option Text) := do
  let tokens ← tokenize? selector
  [Keyword.fromPeer, Keyword.toPeer].findSomeM? (lastClause? selector tokens)

def decompose? (text : Text) (isDefault : Bool) : Option (Except RuleError Decomposition) := do
  let rule := trim text
  match ← expression? rule with
  | none => return .error (.unbalancedBraces rule)
  | some expression =>
    let (selector, filterClause) ← splitFilter? expression isDefault
    match ← factor? selector with
    | none => return .error (.missingFactor (trim selector) rule)
    | some factor => return .ok ⟨factor, filterClause⟩

/-- A closing brace is not the first character of a text that begins with an opening one. -/
theorem slice?_one {text : Text} (hhead : text.head? = some '{') {token : Token}
    (htoken : token ∈ tokenize text) (hkind : token.kind = .closeBrace) :
    slice? 1 token.start text = some (takeBytes token.start text).tail := by
  obtain ⟨before, after, htext, hstart, -⟩ := exists_append_of_mem_tokenize htoken
  have hclose : token.text = ['}'] := Token.Kind.ofText_eq_closeBrace_iff.1 hkind
  cases before with
  | nil =>
    rw [htext, hclose] at hhead
    exact absurd (Option.some.inj hhead) (by decide)
  | cons c before =>
    rw [htext] at hhead
    obtain rfl : c = '{' := Option.some.inj hhead
    rw [← hstart, htext, List.append_assoc, takeBytes_byteSize]
    exact slice?_append ['{'] before _

theorem scanGroup?_eq {text : Text} {grouped : Bool}
    (hgrouped : grouped = true → text.head? = some '{') {tokens : List Token}
    (htokens : ∀ token ∈ tokens, token ∈ tokenize text) (depth : Int) :
    scanGroup? text grouped depth tokens =
      some (Decomposition.scanGroup text grouped depth tokens) := by
  induction tokens generalizing depth with
  | nil => rfl
  | cons token tokens ih =>
    obtain ⟨htoken, hrest⟩ := List.forall_mem_cons.1 htokens
    cases hkind : token.kind with
    | openBrace =>
      simp only [scanGroup?, Decomposition.scanGroup, hkind]
      exact ih hrest (depth + 1)
    | closeBrace =>
      simp only [scanGroup?, Decomposition.scanGroup, hkind]
      split
      next hclosed =>
        rw [Bool.and_eq_true] at hclosed
        rw [slice?_one (hgrouped hclosed.1) htoken hkind, Option.map_some]
      next => exact ih hrest (depth - 1)
    | keyword keyword =>
      have hfront := sliceTo?_of_isBoundary (isBoundary_start htoken)
      cases keyword <;>
        simp only [scanGroup?, Decomposition.scanGroup, hkind, hfront, Option.map_some, ih hrest]
    | word | semicolon =>
      simp only [scanGroup?, Decomposition.scanGroup, hkind]
      exact ih hrest depth

theorem expression?_eq {text : Text} (htext : Trimmed text) :
    expression? text = some (Decomposition.expression? text) := by
  rw [expression?, tokenize?_eq]
  exact scanGroup?_eq (Decomposition.head?_of_isGrouped htext) (fun _ htoken => htoken) 0

/-- A blank of three bytes in front of the group makes its first byte none of the group's. -/
example : expression? ['\u3000', '{', '}'] = none := by decide

theorem filterToken?_eq (tokens : List Token) :
    filterToken? tokens = some (Decomposition.filterToken? tokens) := by
  simp only [filterToken?, tokenAt?_firstIndex?]
  exact List.findSomeM?_pure

theorem splitFilter?_eq (expression : Text) (isDefault : Bool) :
    splitFilter? expression isDefault = some (Decomposition.splitFilter expression isDefault) := by
  rw [splitFilter?, tokenize?_eq, Decomposition.splitFilter]
  simp only [Option.bind_eq_bind, Option.bind_some, filterToken?_eq]
  cases hfilter : Decomposition.filterToken? (tokenize expression) with
  | none => rfl
  | some found =>
    have htoken := (Decomposition.kind_of_filterToken? hfilter).2
    simp only [sliceFrom?_of_isBoundary (isBoundary_stop htoken),
      sliceTo?_of_isBoundary (isBoundary_start htoken), Option.bind_some]
    rfl

theorem lastClause?_eq (selector : Text) (keyword : Keyword) :
    lastClause? selector (tokenize selector) keyword =
      some ((Token.last? keyword (tokenize selector)).map fun token =>
        Decomposition.clause keyword (trim (dropBytes token.stop selector))) := by
  rw [lastClause?, tokenAt?_lastIndex?]
  cases hlast : Token.last? keyword (tokenize selector) with
  | none => rfl
  | some token =>
    have hslice := sliceFrom?_of_isBoundary (isBoundary_stop (Token.mem_of_last? hlast))
    simp only [Option.bind_eq_bind, Option.bind_some, hslice]
    rfl

theorem factor?_eq (selector : Text) :
    factor? selector = some (Decomposition.factor? selector) := by
  rw [factor?, tokenize?_eq]
  simp only [Option.bind_eq_bind, Option.bind_some, funext (lastClause?_eq selector)]
  exact List.findSomeM?_pure

theorem decompose?_eq (text : Text) (isDefault : Bool) :
    decompose? text isDefault = some (decompose text isDefault) := by
  rw [decompose?, expression?_eq (trimmed_trim text), decompose]
  cases Decomposition.expression? (trim text) with
  | none => rfl
  | some expression =>
    simp only [Option.bind_eq_bind, Option.bind_some, splitFilter?_eq, factor?_eq]
    cases Decomposition.factor? (Decomposition.splitFilter expression isDefault).1 with
    | none => rfl
    | some factor => rfl

/-! ### Subject and filter -/

def readForm? (form : Factor.Form) (text : Text) (tokens : List Token) : Option (Option Factor) :=
  match tokens with
  | lead :: subject :: _ =>
    if lead.isKeyword form.lead && subject.kind == .word then do
      let name ← textOf? text subject
      let tail ← tokensFrom? 2 tokens
      if tail = [] then return some (Factor.any name)
      else
        let last ← tail.length.ppred
        let inner ← tokensTo? last tail
        match ← tokenAt? tail (Token.lastIndex? form.boundary inner) with
        | some token =>
          let filter ← sliceFrom? token.stop text
          return some ⟨name, trim filter⟩
        | none => return if form.openTail then some (Factor.any name) else none
    else return none
  | _ => return none

def readFactor? (factor filterClause : Text) : Option (Except RuleError Factor) := do
  let text := Factor.joined factor filterClause
  let tokens ← tokenize? text
  match ← Factor.forms.findSomeM? fun form => readForm? form text tokens with
  | some result => return .ok result
  | none => return .error (.unmatchedFactor text)

/-- The filter of a form starts behind a token that is looked for in front of the last one. -/
theorem tokenAt?_lastIndex?_take (keyword : Keyword) (tokens : List Token) (n : Nat) :
    tokenAt? tokens (Token.lastIndex? keyword (tokens.take n)) =
      some (Token.last? keyword (tokens.take n)) := by
  have htake := tokenAt?_lastIndex? keyword (tokens.take n)
  cases hindex : Token.lastIndex? keyword (tokens.take n) with
  | none =>
    rw [hindex] at htake
    exact htake
  | some index =>
    rw [hindex, tokenAt?] at htake
    obtain ⟨token, htoken, hlast⟩ := Option.map_eq_some_iff.1 htake
    rw [List.getElem?_take, Option.ite_none_right_eq_some] at htoken
    rw [tokenAt?, htoken.2, Option.map_some, hlast]

theorem readForm?_eq (form : Factor.Form) (text : Text) :
    readForm? form text (tokenize text) = some (form.read? text (tokenize text)) := by
  cases htokens : tokenize text with
  | nil => rfl
  | cons lead tokens =>
    cases tokens with
    | nil => rfl
    | cons subject tail =>
      have hmem : ∀ token ∈ lead :: subject :: tail, token ∈ tokenize text :=
        fun token htoken => htokens ▸ htoken
      rw [readForm?, Factor.Form.read?]
      split
      next =>
        have htext := textOf?_eq (hmem subject (by simp))
        have htail : tokensFrom? 2 (lead :: subject :: tail) = some tail := rfl
        simp only [Option.bind_eq_bind, Option.bind_some, htext, htail]
        split
        next => rfl
        next hne =>
          have hlength : tail.length.ppred = some (tail.length - 1) :=
            Nat.ppred_eq_pred (List.length_pos_iff.2 hne)
          have hinner : tokensTo? (tail.length - 1) tail = some tail.dropLast := by
            rw [tokensTo?_eq (Nat.sub_le _ 1), List.dropLast_eq_take]
          have hfound := tokenAt?_lastIndex?_take form.boundary tail (tail.length - 1)
          rw [← List.dropLast_eq_take] at hfound
          simp only [hlength, hinner, hfound, Option.bind_some]
          cases hlast : Token.last? form.boundary tail.dropLast with
          | none => rfl
          | some token =>
            have htoken : token ∈ tail := List.dropLast_subset tail (Token.mem_of_last? hlast)
            have hstop := isBoundary_stop (hmem token (by simp [htoken]))
            simp only [sliceFrom?_of_isBoundary hstop, Option.bind_some]
            rfl
      next => rfl

theorem readFactor?_eq (factor filterClause : Text) :
    readFactor? factor filterClause = some (Factor.read factor filterClause) := by
  have hforms (text : Text) : Factor.forms.findSomeM?
      (fun form => readForm? form text (tokenize text)) =
        some (Factor.forms.findSome? fun form => form.read? text (tokenize text)) := by
    simp only [readForm?_eq]
    exact List.findSomeM?_pure
  rw [readFactor?, tokenize?_eq, Factor.read]
  simp only [Option.bind_eq_bind, Option.bind_some, hforms]
  generalize Factor.joined factor filterClause = text
  cases Factor.forms.findSome? fun form => form.read? text (tokenize text) with
  | none => rfl
  | some result => rfl

/-! ### The address family -/

/-- What follows `head` in a text. The text is cut behind as many bytes as `head` has, once it is known
that it can be cut there. -/
def dropHead? (head text : Text) : Option (Option Text) :=
  match sliceTo? (byteSize head) text with
  | none => some none
  | some front => do
    let rest ← sliceFrom? (byteSize head) text
    return if sameLetters front head then some rest else none

def startsWith (head text : Text) : Bool :=
  (sliceTo? (byteSize head) text).any fun front => sameLetters front head

def afterKeyword? (text : Text) : Option (Option Text) := do
  match ← dropHead? Keyword.afi.name text with
  | some (c :: rest) => return if isBlank c then some (trimStart (c :: rest)) else none
  | _ => return none

def afterGluedIpv6? (text : Text) : Option (Option Text) := do
  match ← dropHead? AddressFamily.ipv6Unicast.name text with
  | some rest => return if startsWith Keyword.fromPeer.name rest then some rest else none
  | none => return none

def resolve? (text : Text) : Option (AddressFamily × Text) := do
  match ← afterKeyword? text with
  | none => return (.any, text)
  | some rest =>
    match ← afterGluedIpv6? rest with
    | some remainder => return (.ipv6Unicast, remainder)
    | none =>
      match rest.dropWhile (!isBlank ·) with
      | [] => return (.any, text)
      | _ :: remainder =>
        return (AddressFamily.ofToken (rest.takeWhile (!isBlank ·)), trimStart remainder)

theorem startsWith_eq (head text : Text) :
    startsWith head text = sameLetters (text.take head.length) head := by
  rw [startsWith, Bool.eq_iff_iff, Option.any_eq_true]
  constructor
  · rintro ⟨front, hfront, hletters⟩
    obtain ⟨after, rfl, -⟩ := sliceTo?_eq_some_iff.1 hfront
    rwa [List.take_left' (length_of_sameLetters hletters)]
  · intro hletters
    refine ⟨text.take head.length, sliceTo?_eq_some_iff.2 ⟨text.drop head.length, ?_, ?_⟩, hletters⟩
    · exact (List.take_append_drop head.length text).symm
    · exact byteSize_of_sameLetters hletters

theorem dropHead?_eq (head text : Text) :
    dropHead? head text = some (Text.dropHead? head text) := by
  rw [dropHead?, Text.dropHead?, ← startsWith_eq, startsWith]
  cases hfront : sliceTo? (byteSize head) text with
  | none => rfl
  | some front =>
    obtain ⟨after, rfl, hsize⟩ := sliceTo?_eq_some_iff.1 hfront
    simp only [← hsize, sliceFrom?_append, Option.bind_eq_bind, Option.bind_some, Option.any_some]
    split
    next hletters =>
      rw [List.drop_left' (length_of_sameLetters hletters)]
      rfl
    next => rfl

theorem afterKeyword?_eq (text : Text) :
    afterKeyword? text = some (AddressFamily.afterKeyword? text) := by
  rw [afterKeyword?, dropHead?_eq, AddressFamily.afterKeyword?]
  cases Text.dropHead? Keyword.afi.name text with
  | none => rfl
  | some rest => cases rest <;> rfl

theorem afterGluedIpv6?_eq (text : Text) :
    afterGluedIpv6? text = some (AddressFamily.afterGluedIpv6? text) := by
  rw [afterGluedIpv6?, dropHead?_eq, AddressFamily.afterGluedIpv6?]
  cases Text.dropHead? AddressFamily.ipv6Unicast.name text with
  | none => rfl
  | some rest =>
    have hstarts : startsWith Keyword.fromPeer.name rest =
        (Text.dropHead? Keyword.fromPeer.name rest).isSome := by
      rw [startsWith_eq, Text.dropHead?, Bool.eq_iff_iff, Option.isSome_ite]
    simp only [Option.bind_eq_bind, Option.bind_some, hstarts]
    rfl

theorem resolve?_eq (text : Text) : resolve? text = some (AddressFamily.resolve text) := by
  rw [resolve?, afterKeyword?_eq, AddressFamily.resolve]
  cases AddressFamily.afterKeyword? text with
  | none => rfl
  | some rest =>
    simp only [Option.bind_eq_bind, Option.bind_some, afterGluedIpv6?_eq]
    cases AddressFamily.afterGluedIpv6? rest with
    | some remainder => rfl
    | none => cases rest.dropWhile (!isBlank ·) <;> rfl

/-! ### The rule as a whole -/

def splitFamily? (text : Text) (context : Context) : Option (AddressFamily × Text) :=
  if context.multiprotocol then resolve? text else some (.ipv4Unicast, text)

def readRule? (text : Text) (context : Context) : Option (Except RuleError ParsedRule) := do
  let (family, body) ← splitFamily? text context
  match ← decompose? body context.isDefault with
  | .error error => return .error error
  | .ok decomposition =>
    match ← readFactor? decomposition.factor (decomposition.filterClause.getD []) with
    | .error error => return .error error
    | .ok factor => return .ok ⟨family, context.direction, context.multiprotocol, factor⟩

theorem splitFamily?_eq (text : Text) (context : Context) :
    splitFamily? text context = some (ParsedRule.splitFamily text context) := by
  rw [splitFamily?, ParsedRule.splitFamily]
  split
  next => exact resolve?_eq text
  next => rfl

theorem readRule?_eq (text : Text) (context : Context) :
    readRule? text context = some (ParsedRule.read text context) := by
  rw [readRule?, splitFamily?_eq, ParsedRule.read]
  simp only [Option.bind_eq_bind, Option.bind_some, decompose?_eq]
  cases decompose (ParsedRule.splitFamily text context).2 context.isDefault with
  | error error => rfl
  | ok decomposition =>
    simp only [readFactor?_eq, Option.bind_some]
    cases Factor.read decomposition.factor (decomposition.filterClause.getD []) with
    | error error => rfl
    | ok factor => rfl

end Checked

end RoutingPolicy

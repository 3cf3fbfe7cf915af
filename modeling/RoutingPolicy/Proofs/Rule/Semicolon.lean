import RoutingPolicy.Proofs.Rule.Decomposition

/-!
# Semicolons behind rules

A semicolon behind a rule is a token of its own. It lies in the part that counts only if all of the rule
does, and it stays at the end of whatever is cut out. The address family and the actions of a rule do
not depend on it; the router addresses do if they are looked for at the end of the rule.
-/

namespace RoutingPolicy

open Text

/-! ### The token at the end -/

theorem isLexeme_semicolon : IsLexeme [';'] := .inr ⟨';', rfl, rfl⟩

theorem isBlank_head?_semicolon : ∀ c ∈ [';'].head?, isBlank c = false := by
  intro c hc
  obtain rfl := Option.some.inj hc
  rfl

theorem toUpper_head?_semicolon {name : Text} (hname : ';' ∉ name.map Char.toUpper) :
    ∀ c ∈ [';'].head?, c.toUpper ∉ name.map Char.toUpper := by
  intro c hc
  obtain rfl := Option.some.inj hc
  exact hname

theorem Token.kind_semicolon (start : Nat) : Token.kind ⟨[';'], start⟩ = .semicolon := by
  have hkind : Token.Kind.ofText [';'] = .semicolon := by decide
  exact hkind

section Blanks

variable {blanks : Text} (hblanks : ∀ c ∈ blanks, isBlank c = true)

include hblanks

theorem tokenize_append_blanks (text : Text) : tokenize (text ++ blanks) = tokenize text := by
  rw [tokenize, Token.scan_append 0 (apart_of_blanks_right text hblanks),
    Token.scan_blanks _ hblanks, List.append_nil, tokenize]

theorem tokenize_append_semicolon (text : Text) : tokenize (text ++ blanks ++ [';']) =
    tokenize text ++ [⟨[';'], byteSize (text ++ blanks)⟩] := by
  have hseam : Apart (text ++ blanks) [';'] := apart_cons _ [] (by decide)
  rw [tokenize, Token.scan_append 0 hseam, Token.scan_lexeme _ isLexeme_semicolon, ← tokenize,
    tokenize_append_blanks hblanks, Nat.zero_add]

theorem lexemes_append_semicolon (text : Text) :
    lexemes (text ++ blanks ++ [';']) = lexemes text ++ [[';']] := by
  rw [lexemes, tokenize_append_semicolon hblanks, List.map_append, List.map_singleton, lexemes]

theorem trim_append_semicolon (text : Text) : ∃ more, (∀ c ∈ more, isBlank c = true) ∧
    trim (text ++ blanks ++ [';']) = trim text ++ more ++ [';'] := by
  obtain ⟨more, hmore, hend⟩ := exists_eq_trimEnd_append (trimStart (text ++ blanks))
  refine ⟨more, hmore, ?_⟩
  rw [trim, trimStart_append_of_head? _ isBlank_head?_semicolon,
    trimEnd_of_getLast? (isBlank_getLast?_concat _ rfl), ← trim_append_right text hblanks, trim,
    ← hend]

end Blanks

/-- Whether the last token is a semicolon is seen at the last character that is no blank. -/
theorem getLast?_lexemes_of_trimEnd {text : Text} (hlast : (trimEnd text).getLast? ≠ some ';') :
    (lexemes text).getLast? ≠ some [';'] := by
  intro hsemicolon
  obtain ⟨front, hfront⟩ := List.getLast?_eq_some_iff.1 hsemicolon
  obtain ⟨earlier, tokens, htokens, -, hmap⟩ := List.map_eq_append_iff.1 hfront
  obtain ⟨token, rfl, htoken⟩ := List.map_eq_singleton_iff.1 hmap
  obtain ⟨before, after, -, htext, -, -, hafter⟩ := Token.tokenize_division htokens
  have hblanks : ∀ c ∈ after, isBlank c = true := by
    intro c hc
    by_contra hblank
    exact lexemes_ne_nil hc (Bool.of_not_eq_true hblank) hafter
  rw [htext, htoken, trimEnd_append_right _ hblanks,
    trimEnd_of_getLast? (isBlank_getLast?_concat before rfl), List.getLast?_concat] at hlast
  exact hlast rfl

theorem getLast?_trim_of_lexemes {text : Text} (hlast : (lexemes text).getLast? ≠ some [';']) :
    (trim text).getLast? ≠ some ';' := by
  intro hsemicolon
  obtain ⟨front, hfront⟩ := List.getLast?_eq_some_iff.1 hsemicolon
  have hlexemes := lexemes_append_semicolon (List.forall_mem_nil _) front
  rw [List.append_nil, ← hfront, lexemes_trim] at hlexemes
  rw [hlexemes, List.getLast?_concat] at hlast
  exact hlast rfl

theorem trim_eq_nil_of_lexemes {text : Text} (hlexemes : lexemes text = []) : trim text = [] := by
  by_contra hne
  have hsolid : Solid (trim text) := ⟨hne, trimmed_trim text⟩
  rw [← lexemes_trim] at hlexemes
  exact hsolid.lexemes_ne_nil hlexemes

namespace Token

theorem last?_append_semicolon (keyword : Keyword) (tokens : List Token) {last : Token}
    (hlast : last.kind = .semicolon) : last? keyword (tokens ++ [last]) = last? keyword tokens := by
  refine last?_append_of_forall (List.forall_mem_singleton.2 ?_) tokens
  simp [isKeyword, hlast]

end Token

namespace Decomposition

variable {rule blanks : Text}

/-! ### The part that counts -/

theorem length_trim_le (text : Text) : (trim text).length ≤ text.length := by
  obtain ⟨before, after, -, -, htext⟩ := exists_eq_append_trim text
  have hlength := congrArg List.length htext
  rw [List.length_append, List.length_append] at hlength
  omega

/-- A scan that reaches the end of a rule also takes in what is put behind it, and no other scan gets
to see it. -/
theorem scanGroup_semicolon (more : Text) {last : Token} (hlast : last.kind = .semicolon)
    (grouped : Bool) {tokens : List Token} (htokens : ∀ token ∈ tokens, token ∈ tokenize rule)
    (depth : Int) :
    (scanGroup rule grouped depth tokens = some rule ∧
      scanGroup (rule ++ more) grouped depth (tokens ++ [last]) = some (rule ++ more)) ∨
    (scanGroup rule grouped depth tokens ≠ some rule ∧
      scanGroup (rule ++ more) grouped depth (tokens ++ [last]) =
        scanGroup rule grouped depth tokens) := by
  induction tokens generalizing depth with
  | nil =>
    rw [List.nil_append, scanGroup, scanGroup, hlast]
    simp only [scanGroup]
    by_cases hdepth : depth = 0
    · exact .inl ⟨if_pos hdepth, if_pos hdepth⟩
    · simp only [if_neg hdepth]
      exact .inr ⟨(Option.some_ne_none rule).symm, trivial⟩
  | cons token tokens ih =>
    obtain ⟨htoken, hlater⟩ := List.forall_mem_cons.1 htokens
    have hfront := takeBytes_start_append htoken more
    have hshort := length_takeBytes_start htoken
    have hshorter : ∀ text : Text, text.length ≤ (takeBytes token.start rule).length →
        some (trim text) ≠ some rule := by
      intro text htext heq
      have hlength := length_trim_le text
      rw [Option.some.inj heq] at hlength
      omega
    rw [List.cons_append, scanGroup, scanGroup, hfront]
    split
    next => exact ih hlater (depth + 1)
    next =>
      split
      next => exact .inr ⟨hshorter _ (by simp), rfl⟩
      next => exact ih hlater (depth - 1)
    next => exact .inr ⟨hshorter _ (Nat.le_refl _), rfl⟩
    next => exact .inr ⟨hshorter _ (Nat.le_refl _), rfl⟩
    next => exact ih hlater depth

theorem expression?_semicolon (rule : Text) (hblanks : ∀ c ∈ blanks, isBlank c = true) :
    (expression? rule = some rule ∧
      expression? (rule ++ blanks ++ [';']) = some (rule ++ blanks ++ [';'])) ∨
    (expression? rule ≠ some rule ∧
      expression? (rule ++ blanks ++ [';']) = expression? rule) := by
  have hgroup (last : Token) (hlast : last.kind = .semicolon) :
      isGrouped (tokenize rule ++ [last]) = isGrouped (tokenize rule) := by
    cases tokenize rule with
    | nil => simp [isGrouped, hlast]
    | cons first tokens => rfl
  simp only [expression?]
  rw [tokenize_append_semicolon hblanks, hgroup _ (Token.kind_semicolon _), List.append_assoc]
  exact scanGroup_semicolon _ (Token.kind_semicolon _) _ (fun _ htoken => htoken) 0

/-! ### Selector and filter clause -/

theorem filterToken?_append_semicolon (tokens : List Token) {last : Token}
    (hlast : last.kind = .semicolon) : filterToken? (tokens ++ [last]) = filterToken? tokens := by
  have hfirst (keyword : Keyword) :
      Token.first? keyword (tokens ++ [last]) = Token.first? keyword tokens := by
    have hother : ¬last.isKeyword keyword = true := by simp [Token.isKeyword, hlast]
    rw [Token.first?, List.find?_append, List.find?_cons_of_neg hother, List.find?_nil,
      Option.or_none, Token.first?]
  simp only [filterToken?, hfirst]

/-- In a clause the semicolon stays at the end. -/
theorem clause_semicolon (hblanks : ∀ c ∈ blanks, isBlank c = true) (keyword : Keyword)
    (text : Text) : ∃ more, (∀ c ∈ more, isBlank c = true) ∧
      clause keyword (trim (text ++ blanks ++ [';'])) =
        clause keyword (trim text) ++ more ++ [';'] := by
  obtain ⟨more, hmore, htrim⟩ := trim_append_semicolon hblanks text
  have hne : trim text ++ more ++ [';'] ≠ [] := by simp
  rw [htrim, clause, if_neg hne, clause]
  by_cases hnil : trim text = []
  · refine ⟨' ' :: more, List.forall_mem_cons.2 ⟨rfl, hmore⟩, ?_⟩
    rw [if_pos hnil, hnil]
    simp
  · refine ⟨more, hmore, ?_⟩
    rw [if_neg hnil]
    simp

theorem lexemes_clause_ne_nil (keyword : Keyword) (text : Text) :
    lexemes (clause keyword text) ≠ [] := by
  rw [lexemes_clause]
  exact List.cons_ne_nil _ _

theorem getLast?_lexemes_clause (keyword : Keyword) {before : List Text} {word text : Text}
    (hlast : (before ++ word :: lexemes text).getLast? ≠ some [';']) :
    (lexemes (clause keyword (trim text))).getLast? ≠ some [';'] := by
  rw [lexemes_clause, lexemes_trim]
  cases hlexemes : lexemes text with
  | nil =>
    have hname : keyword.name ≠ [';'] := by cases keyword <;> decide
    simpa using hname
  | cons lexeme rest =>
    rw [hlexemes, List.getLast?_append_of_ne_nil _ (List.cons_ne_nil _ _),
      List.getLast?_cons_cons] at hlast
    rwa [List.getLast?_cons_cons]

/-- What follows the lead of a factor takes the semicolon along. -/
theorem factor?_semicolon (rule : Text) (hblanks : ∀ c ∈ blanks, isBlank c = true) :
    (factor? rule = none ∧ factor? (rule ++ blanks ++ [';']) = none) ∨
    ∃ lead before word after, (lead = .fromPeer ∨ lead = .toPeer) ∧
      lexemes rule = before ++ word :: lexemes after ∧
      factor? rule = some (clause lead (trim after)) ∧
      factor? (rule ++ blanks ++ [';']) = some (clause lead (trim (after ++ blanks ++ [';']))) := by
  have hsame (lead : Keyword) :
      (Token.last? lead (tokenize (rule ++ blanks ++ [';']))).map (fun token =>
          clause lead (trim (dropBytes token.stop (rule ++ blanks ++ [';'])))) =
        (Token.last? lead (tokenize rule)).map (fun token =>
          clause lead (trim (dropBytes token.stop rule ++ blanks ++ [';']))) := by
    rw [tokenize_append_semicolon hblanks,
      Token.last?_append_semicolon _ _ (Token.kind_semicolon _)]
    refine Option.map_congr fun token htoken => ?_
    rw [List.append_assoc, dropBytes_stop_append (Token.mem_of_last? htoken), ← List.append_assoc]
  unfold factor?
  simp only [List.findSome?_cons, hsame]
  cases hfrom : Token.last? .fromPeer (tokenize rule) with
  | some token =>
    obtain ⟨before, hlexemes⟩ := lexemes_eq_append_dropBytes (Token.mem_of_last? hfrom)
    exact .inr ⟨.fromPeer, before, token.text, _, .inl rfl, hlexemes, rfl, rfl⟩
  | none =>
    cases hto : Token.last? .toPeer (tokenize rule) with
    | some token =>
      obtain ⟨before, hlexemes⟩ := lexemes_eq_append_dropBytes (Token.mem_of_last? hto)
      exact .inr ⟨.toPeer, before, token.text, _, .inr rfl, hlexemes, rfl, rfl⟩
    | none => exact .inl ⟨rfl, rfl⟩

end Decomposition

/-! ### The address family -/

namespace AddressFamily

theorem afterKeyword?_semicolon (text : Text) :
    afterKeyword? (text ++ [';']) = (afterKeyword? text).map (· ++ [';']) := by
  unfold afterKeyword?
  rw [dropHead?_append_of_head? (toUpper_head?_semicolon (by decide))]
  cases dropHead? Keyword.afi.name text with
  | none => rfl
  | some rest =>
    cases rest with
    | nil => rfl
    | cons c rest =>
      simp only [Option.map_some, List.cons_append]
      split
      next =>
        rw [Option.map_some, ← List.cons_append,
          trimStart_append_of_head? _ isBlank_head?_semicolon]
      next => rfl

/-- A semicolon behind a rule stays behind what follows the family. -/
theorem resolve_semicolon (text : Text) :
    resolve (text ++ [';']) = ((resolve text).1, (resolve text).2 ++ [';']) := by
  unfold resolve
  rw [afterKeyword?_semicolon]
  cases afterKeyword? text with
  | none => rfl
  | some rest =>
    simp only [Option.map_some]
    rw [afterGluedIpv6?_append (toUpper_head?_semicolon (by decide))
      (toUpper_head?_semicolon (by decide))]
    cases afterGluedIpv6? rest with
    | some remainder => rfl
    | none =>
      simp only [Option.map_none]
      cases hdrop : rest.dropWhile (!isBlank ·) with
      | nil =>
        have hnil : (rest ++ [';']).dropWhile (!isBlank ·) = [] := by
          rw [List.dropWhile_append, hdrop]
          decide
        simp only [hnil]
      | cons d remainder =>
        have hne : rest.dropWhile (!isBlank ·) ≠ [] := by simp [hdrop]
        obtain ⟨htake, hrest⟩ := span_append_of_ne hne [';']
        rw [hdrop, List.cons_append] at hrest
        simp only [hrest, htake, trimStart_append_of_head? _ isBlank_head?_semicolon]

end AddressFamily

theorem ParsedRule.splitFamily_semicolon (text : Text) (context : Context) :
    splitFamily (text ++ [';']) context =
      ((splitFamily text context).1, (splitFamily text context).2 ++ [';']) := by
  unfold splitFamily
  split
  next => exact AddressFamily.resolve_semicolon text
  next => rfl

/-! ### Actions -/

namespace ActionList

theorem ofStatements_append_nil (sequence : Nat) (statements : List Text) :
    Action.ofStatements sequence (statements ++ [[]]) = Action.ofStatements sequence statements := by
  induction statements generalizing sequence with
  | nil => rfl
  | cons statement statements ih =>
    rw [List.cons_append, Action.ofStatements, Action.ofStatements, ih]

theorem ofRule?_semicolon (text : Text) (direction : Direction) {boundary : Keyword} :
    ofRule? (text ++ [';']) direction boundary = ofRule? text direction boundary := by
  have hnone : ∀ keyword, containsKeyword [';'] keyword = false := by
    intro keyword
    cases keyword <;> decide +kernel
  obtain ⟨tail, htail, hclause⟩ := clause?_append (apart_cons text [] (by decide))
    (hnone .action) (hnone boundary)
  have hstatements (clause : Text) : Action.ofStatements 0 (splitOn ';' (clause ++ tail)) =
      Action.ofStatements 0 (splitOn ';' clause) := by
    rcases htail with rfl | rfl
    · rw [List.append_nil]
    · rw [splitOn_append_separator, ofStatements_append_nil]
  rw [ofRule?, hclause, Option.map_map, ofRule?]
  congr 1
  funext clause
  rw [Function.comp_apply, hstatements]

end ActionList

/-! ### Router addresses -/

namespace AddressPair

/-- The local address is looked for at the end of the rule, since the rule has neither actions nor a
filter in front of which it could stand. -/
def EndsInRouter (text : Text) : Prop :=
  containsKeyword text .action = false ∧
    ∀ keyword ∈ Decomposition.filterKeywords, containsKeyword text keyword = false

instance (text : Text) : Decidable (EndsInRouter text) :=
  inferInstanceAs (Decidable (_ ∧ _))

section TextBefore

variable {stop : Token → Bool} {tokens : List Token}

theorem textBefore?_append_of_any (last : Token) (hany : tokens.any stop = true) :
    textBefore? stop (tokens ++ [last]) = textBefore? stop tokens := by
  have hlength : (tokens.takeWhile (!stop ·)).length ≠ tokens.length := by
    intro heq
    have hall := List.takeWhile_eq_self_iff.1 ((List.takeWhile_prefix _).eq_of_length heq)
    obtain ⟨token, htoken, hstop⟩ := List.any_eq_true.1 hany
    simpa [hstop] using hall token htoken
  rw [textBefore?, List.takeWhile_append, if_neg hlength, textBefore?]

theorem textBefore?_append_of_not_any {last : Token} (hlast : stop last = false)
    (hany : tokens.any stop = false) :
    textBefore? stop (tokens ++ [last]) = some last.text := by
  have hall : ∀ token ∈ tokens ++ [last], (!stop token) = true := by
    refine List.forall_mem_append.2 ⟨fun token htoken => ?_, List.forall_mem_singleton.2 ?_⟩
    · simpa using List.any_eq_false.1 hany token htoken
    · rw [hlast, Bool.not_false]
  rw [textBefore?, List.takeWhile_eq_self_iff.2 hall, List.getLast?_concat, Option.map_some]

end TextBefore

theorem any_isFilterToken (text : Text) : (tokenize text).any isFilterToken =
    Decomposition.filterKeywords.any (containsKeyword text ·) := by
  rw [Bool.eq_iff_iff]
  simp only [List.any_eq_true, isFilterToken, containsKeyword]
  constructor
  · rintro ⟨token, htoken, keyword, hkeyword, his⟩
    exact ⟨keyword, hkeyword, token, htoken, his⟩
  · rintro ⟨keyword, hkeyword, token, htoken, his⟩
    exact ⟨token, htoken, keyword, hkeyword, his⟩

theorem localText?_semicolon (text : Text) (start : Nat) :
    localText? (tokenize text ++ [⟨[';'], start⟩]) =
      if EndsInRouter text then some [';'] else localText? (tokenize text) := by
  have hkeyword (keyword : Keyword) : Token.isKeyword keyword ⟨[';'], start⟩ = false := by
    simp [Token.isKeyword, Token.kind_semicolon]
  have hfilter : isFilterToken ⟨[';'], start⟩ = false := by
    simp [isFilterToken, hkeyword]
  have hany : (tokenize text ++ [(⟨[';'], start⟩ : Token)]).any (Token.isKeyword .action) =
      containsKeyword text .action := by
    rw [List.any_append, List.any_cons, hkeyword, containsKeyword]
    simp
  unfold localText?
  rw [hany, ← containsKeyword]
  cases haction : containsKeyword text .action with
  | true =>
    have hends : ¬EndsInRouter text := by simp [EndsInRouter, haction]
    rw [if_pos rfl, if_pos rfl, if_neg hends,
      textBefore?_append_of_any _ haction]
  | false =>
    rw [if_neg Bool.false_ne_true, if_neg Bool.false_ne_true]
    cases hfound : (tokenize text).any isFilterToken with
    | true =>
      have hends : ¬EndsInRouter text := by
        rintro ⟨-, hnone⟩
        rw [any_isFilterToken] at hfound
        obtain ⟨keyword, hmem, hcontains⟩ := List.any_eq_true.1 hfound
        rw [hnone keyword hmem] at hcontains
        exact Bool.false_ne_true hcontains
      rw [if_neg hends, textBefore?_append_of_any _ hfound]
    | false =>
      have hends : EndsInRouter text := by
        refine ⟨haction, fun keyword hmem => ?_⟩
        rw [any_isFilterToken] at hfound
        simpa using List.any_eq_false.1 hfound keyword hmem
      rw [if_pos hends, textBefore?_append_of_not_any hfilter hfound]

/-- The semicolon is no address, and it stands in the place of one if the rule ends in a router. -/
theorem ofRule?_semicolon (text : Text) (multiprotocol : Bool) :
    ofRule? (text ++ [';']) multiprotocol =
      if EndsInRouter text then none else ofRule? text multiprotocol := by
  have htokens : tokenize (text ++ [';']) = tokenize text ++ [⟨[';'], byteSize text⟩] := by
    have hbehind := tokenize_append_semicolon (List.forall_mem_nil _) text
    rwa [List.append_nil] at hbehind
  have hrouter : Token.isKeyword .atRouter ⟨[';'], byteSize text⟩ = false := by
    simp [Token.isKeyword, Token.kind_semicolon]
  have hread : Address.read? .strict multiprotocol [';'] = none := by
    cases multiprotocol <;> decide
  unfold ofRule?
  simp only [htokens, localText?_semicolon, List.any_append, List.any_cons, List.any_nil, hrouter,
    Bool.or_false]
  cases hany : (tokenize text).any (Token.isKeyword .atRouter) with
  | false => simp
  | true =>
    rw [remoteText?, textBefore?_append_of_any _ hany, ← remoteText?]
    by_cases hends : EndsInRouter text
    · simp only [if_pos hends, if_true, Option.bind_some, hread]
      cases (remoteText? (tokenize text)).bind (Address.read? .strict multiprotocol) <;> rfl
    · simp only [if_neg hends]

end AddressPair

end RoutingPolicy

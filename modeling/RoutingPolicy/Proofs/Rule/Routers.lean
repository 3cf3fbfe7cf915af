import RoutingPolicy.Proofs.Address.Notation
import RoutingPolicy.Proofs.Rule.Parts
import RoutingPolicy.Rule.Routers

/-!
# Router addresses of rules written in parts

The remote address stands before the first `AT`, the local one before the first `ACTION` of the
whole rule or, if there is none, before its first filter keyword.
-/

namespace RoutingPolicy

open Text

theorem Address.isIpv6_of_read? {form : AddressSyntax} {version6 : Bool} {text : Text}
    {address : Address} (hread : read? form version6 text = some address) :
    address.isIpv6 = version6 := by
  unfold read? at hread
  split at hread
  next hversion =>
    obtain ⟨inner, -, rfl⟩ := Option.map_eq_some_iff.1 hread
    exact hversion.symm
  next hversion =>
    obtain ⟨inner, -, rfl⟩ := Option.map_eq_some_iff.1 hread
    exact (Bool.of_not_eq_true hversion).symm

namespace AddressPair

/-- Both routers of a rule are of the version that goes with its kind. -/
theorem isIpv6_of_ofRule? {text : Text} {multiprotocol : Bool} {pair : AddressPair}
    (hpair : ofRule? text multiprotocol = some pair) :
    pair.localRouter.isIpv6 = multiprotocol ∧ pair.remoteRouter.isIpv6 = multiprotocol := by
  unfold ofRule? at hpair
  simp only at hpair
  split at hpair
  next =>
    obtain ⟨remote, hremote, hpair⟩ := Option.bind_eq_some_iff.1 hpair
    obtain ⟨localEnd, hlocal, hpair⟩ := Option.bind_eq_some_iff.1 hpair
    obtain ⟨remoteText, -, hremote⟩ := Option.bind_eq_some_iff.1 hremote
    obtain ⟨localText, -, hlocal⟩ := Option.bind_eq_some_iff.1 hlocal
    cases hpair
    exact ⟨Address.isIpv6_of_read? hlocal, Address.isIpv6_of_read? hremote⟩
  next => simp at hpair

variable {before after : List Text}

theorem textBefore?_spaced {stop : Token → Bool} {word : Text} {mark : Keyword}
    (hword : IsLexeme word)
    (hbefore : ∀ token ∈ tokenize (leading (before ++ [word])), stop token = false)
    (hmark : ∀ start, stop ⟨mark.name, start⟩ = true) :
    textBefore? stop (tokenize (spaced (before ++ word :: mark.name :: after))) = some word := by
  have hcut := cut_trailing (.inl (isWord_name mark)) (before ++ [word]) after
  have hpass : ∀ token ∈ tokenize (leading (before ++ [word])), (!stop token) = true := by
    intro token htoken
    rw [hbefore token htoken, Bool.not_false]
  rw [textBefore?, List.append_cons, spaced_append_cons, hcut.tokenize_eq,
    List.takeWhile_append_of_pos hpass, List.takeWhile_cons_of_neg (by simp [hmark]),
    List.append_nil, ← List.getLast?_map, ← lexemes, lexemes_leading, List.flatMap_append,
    List.flatMap_singleton, lexemes_of_isLexeme hword, List.getLast?_concat]

theorem ofRule?_eq_none {text : Text} (multiprotocol : Bool)
    (htext : containsKeyword text .atRouter = false) : ofRule? text multiprotocol = none := by
  rw [containsKeyword] at htext
  simp [ofRule?, htext]

theorem remoteText?_spaced {word : Text} (hword : IsLexeme word)
    (hbefore : Without .atRouter (before ++ [word])) :
    remoteText? (tokenize (spaced (before ++ word :: Keyword.atRouter.name :: after))) =
      some word := by
  refine textBefore?_spaced hword ?_ (Token.isKeyword_name .atRouter)
  intro token htoken
  exact isKeyword_of_mem_scan (containsKeyword_leading hbefore) htoken

theorem localText?_spaced_action {word : Text} (hword : IsLexeme word)
    (hbefore : Without .action (before ++ [word])) :
    localText? (tokenize (spaced (before ++ word :: Keyword.action.name :: after))) =
      some word := by
  have hany : containsKeyword (spaced (before ++ word :: Keyword.action.name :: after)) .action =
      true :=
    containsKeyword_spaced_of_mem (by simp)
  rw [containsKeyword] at hany
  rw [localText?, if_pos hany]
  refine textBefore?_spaced hword ?_ (Token.isKeyword_name .action)
  intro token htoken
  exact isKeyword_of_mem_scan (containsKeyword_leading hbefore) htoken

theorem localText?_spaced_filter {word : Text} {boundary : Keyword} (hword : IsLexeme word)
    (hboundary : boundary ∈ Decomposition.filterKeywords)
    (hbefore : ∀ keyword ∈ Decomposition.filterKeywords, Without keyword (before ++ [word]))
    (haction : Without .action (before ++ word :: boundary.name :: after)) :
    localText? (tokenize (spaced (before ++ word :: boundary.name :: after))) = some word := by
  have hany := containsKeyword_spaced haction
  rw [containsKeyword] at hany
  rw [localText?, if_neg (by simp [hany])]
  refine textBefore?_spaced hword ?_ ?_
  · intro token htoken
    rw [isFilterToken, List.any_eq_false]
    intro keyword hkeyword
    rw [isKeyword_of_mem_scan (containsKeyword_leading (hbefore keyword hkeyword)) htoken]
    exact Bool.false_ne_true
  · intro start
    rw [isFilterToken, List.any_eq_true]
    exact ⟨boundary, hboundary, Token.isKeyword_name boundary start⟩

theorem without_routers (pair : AddressPair) {keyword : Keyword} (hne : keyword ≠ .atRouter) :
    Without keyword
      [pair.remoteRouter.toText, Keyword.atRouter.name, pair.localRouter.toText] := by
  have huses : Uses [.atRouter]
      [pair.remoteRouter.toText, Keyword.atRouter.name, pair.localRouter.toText] :=
    Uses.cons pair.remoteRouter.plainWord_toText.uses
      (Uses.cons (uses_name (by decide)) pair.localRouter.plainWord_toText.uses)
  exact huses.without keyword (by simpa using hne)

variable {pair : AddressPair} {terminator : Keyword}

/-- The keyword in front of which the local address is looked for: the first `ACTION`, or else the
first filter keyword. -/
def Terminates (terminator : Keyword) (before after : List Text) : Prop :=
  terminator = .action ∨ terminator ∈ Decomposition.filterKeywords ∧
    (∀ keyword ∈ Decomposition.filterKeywords, Without keyword before) ∧ Without .action after

theorem localText?_routers (haction : Without .action before)
    (hterminator : Terminates terminator before after) :
    localText? (tokenize (spaced (before ++ pair.remoteRouter.toText :: Keyword.atRouter.name ::
      pair.localRouter.toText :: terminator.name :: after))) = some pair.localRouter.toText := by
  have hlexeme : IsLexeme pair.localRouter.toText := .inl pair.localRouter.plainWord_toText.isWord
  have hfront : ∀ keyword, keyword ≠ .atRouter → Without keyword before →
      Without keyword (before ++ [pair.remoteRouter.toText, Keyword.atRouter.name] ++
        [pair.localRouter.toText]) := by
    intro keyword hne hbefore
    rw [List.append_assoc]
    exact Without.append hbefore (pair.without_routers hne)
  rw [List.append_cons, List.append_cons, List.append_assoc before]
  rcases hterminator with rfl | ⟨hterminator, hfilter, hafter⟩
  · exact localText?_spaced_action hlexeme (hfront .action (by decide) haction)
  · have hne : ∀ keyword ∈ Decomposition.filterKeywords, keyword ≠ .action ∧
        keyword ≠ .atRouter := by decide
    refine localText?_spaced_filter hlexeme hterminator ?_ ?_
    · intro keyword hkeyword
      exact hfront keyword (hne keyword hkeyword).2 (hfilter keyword hkeyword)
    · rw [List.append_cons]
      exact Without.append (hfront .action (by decide) haction)
        (Without.cons (containsKeyword_name (hne terminator hterminator).1.symm) hafter)

/-- Both addresses of a rule are read, the local one before the keyword that follows it. -/
theorem ofRule?_spaced {multiprotocol : Bool}
    (hlocal : pair.localRouter.isIpv6 = multiprotocol)
    (hremote : pair.remoteRouter.isIpv6 = multiprotocol)
    (hrouter : Without .atRouter before) (haction : Without .action before)
    (hterminator : Terminates terminator before after) :
    ofRule? (spaced (before ++ pair.remoteRouter.toText :: Keyword.atRouter.name ::
      pair.localRouter.toText :: terminator.name :: after)) multiprotocol = some pair := by
  have hword := pair.remoteRouter.plainWord_toText
  have hany : containsKeyword (spaced (before ++ pair.remoteRouter.toText ::
      Keyword.atRouter.name :: pair.localRouter.toText :: terminator.name :: after)) .atRouter =
        true :=
    containsKeyword_spaced_of_mem (by simp)
  have hremoteText : remoteText? (tokenize (spaced (before ++ pair.remoteRouter.toText ::
      Keyword.atRouter.name :: pair.localRouter.toText :: terminator.name :: after))) =
        some pair.remoteRouter.toText :=
    remoteText?_spaced (.inl hword.isWord) (Without.append hrouter (hword.without .atRouter))
  have hread : Address.read? .strict multiprotocol pair.remoteRouter.toText =
        some pair.remoteRouter ∧
      Address.read? .strict multiprotocol pair.localRouter.toText = some pair.localRouter :=
    ⟨hremote ▸ Address.read?_toText .strict _, hlocal ▸ Address.read?_toText .strict _⟩
  rw [containsKeyword] at hany
  simp only [ofRule?, hany, if_true, hremoteText, localText?_routers haction hterminator,
    Option.bind_some, hread]
  rfl

end AddressPair

end RoutingPolicy

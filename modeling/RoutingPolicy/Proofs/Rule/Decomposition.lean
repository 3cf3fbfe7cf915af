import RoutingPolicy.Proofs.Rule.Parts
import RoutingPolicy.Proofs.Rule.Selector

/-!
# Decomposing rules written in parts

What each step of the decomposition returns for a rule in parts: the part of the rule that counts,
selector and filter clause around the first filter keyword, and the factor after the last `FROM` or
`TO`.
-/

namespace RoutingPolicy

open Text

namespace Decomposition

/-! ### The part that counts -/

/-- Without a leading group only the numbers of braces matter. -/
theorem scanGroup_passed (text : Text) {tokens : List Token}
    (htokens : ∀ token ∈ tokens,
      token.kind ≠ .keyword .refine ∧ token.kind ≠ .keyword .except) {depth behind : Int}
    (hbehind : behind + (tokens.map Token.text).count ['}'] =
      depth + (tokens.map Token.text).count ['{']) (rest : List Token) :
    scanGroup text false depth (tokens ++ rest) = scanGroup text false behind rest := by
  induction tokens generalizing depth with
  | nil =>
    obtain rfl : behind = depth := by simpa using hbehind
    rfl
  | cons token tokens ih =>
    obtain ⟨⟨hrefine, hexcept⟩, hlater⟩ := List.forall_mem_cons.1 htokens
    have hopen := @Token.Kind.ofText_eq_openBrace_iff token.text
    have hclose := @Token.Kind.ofText_eq_closeBrace_iff token.text
    rw [List.map_cons] at hbehind
    rw [List.cons_append, scanGroup]
    split
    next hkind =>
      rw [hopen.1 hkind, List.count_cons_self, List.count_cons_of_ne (by decide)] at hbehind
      exact ih hlater (by omega)
    next hkind =>
      rw [hclose.1 hkind, List.count_cons_self, List.count_cons_of_ne (by decide)] at hbehind
      exact ih hlater (by omega)
    next hkind => exact absurd hkind hrefine
    next hkind => exact absurd hkind hexcept
    next hnotOpen hnotClose _ _ =>
      rw [List.count_cons_of_ne fun heq => hnotOpen (hopen.2 heq),
        List.count_cons_of_ne fun heq => hnotClose (hclose.2 heq)] at hbehind
      exact ih hlater hbehind

theorem expression?_ungrouped {text : Text} (hgroup : isGrouped (tokenize text) = false)
    (hrefine : containsKeyword text .refine = false)
    (hexcept : containsKeyword text .except = false)
    (hbalanced : text.count '{' = text.count '}') : expression? text = some text := by
  have hopen := count_lexemes (c := '{') (by decide) text
  have hclose := count_lexemes (c := '}') (by decide) text
  rw [lexemes] at hopen hclose
  have htokens : ∀ token ∈ tokenize text,
      token.kind ≠ .keyword .refine ∧ token.kind ≠ .keyword .except := fun token htoken =>
    ⟨kind_ne_of_mem_scan hrefine htoken, kind_ne_of_mem_scan hexcept htoken⟩
  have hscan := @scanGroup_passed text _ htokens 0 0 (by rw [hopen, hclose, hbalanced]) []
  simp only [expression?, hgroup]
  rw [← List.append_nil (tokenize text), hscan, scanGroup, if_pos rfl]

/-- A rule that has been trimmed has nothing in front of a leading group. -/
theorem head?_of_isGrouped {text : Text} (htext : Trimmed text)
    (hgrouped : isGrouped (tokenize text) = true) : text.head? = some '{' := by
  cases text with
  | nil => simp [isGrouped] at hgrouped
  | cons c rest =>
    have hblank : ¬isBlank c = true := by simp [htext.1 c rfl]
    rw [isGrouped, tokenize, Token.scan, if_neg hblank] at hgrouped
    split at hgrouped
    all_goals
      simp only [List.head?_cons, Option.any_some, beq_iff_eq, Token.kind,
        Token.Kind.ofText_eq_openBrace_iff] at hgrouped
      rw [List.head?_cons, (List.cons.inj hgrouped).1]

/-- What counts of a rule that begins with a group is the inside of the group. -/
theorem expression?_group {inside : Text} (hinside : WellNested inside)
    (hrefine : containsKeyword inside .refine = false)
    (hexcept : containsKeyword inside .except = false) (rest : Text) :
    expression? (['{'] ++ inside ++ ['}'] ++ rest) = some (trim inside) := by
  have hopen : Cut [] ['{'] inside := cut_delimiter (by decide) [] inside
  have hclose : Cut (['{'] ++ inside) ['}'] rest := cut_delimiter (by decide) _ rest
  have htokens : tokenize (['{'] ++ inside ++ ['}'] ++ rest) =
      ⟨['{'], 0⟩ :: (Token.scan 1 inside ++ ⟨['}'], byteSize (['{'] ++ inside)⟩ ::
        Token.scan (byteSize (['{'] ++ inside ++ ['}'])) rest) := by
    have hfront := hopen.tokenize_eq
    rw [List.nil_append, tokenize_nil, List.nil_append] at hfront
    rw [hclose.tokenize_eq, hfront]
    rfl
  have hpassed : ∀ token ∈ Token.scan 1 inside, IsLexeme token.text ∧
      token.kind ≠ .keyword .refine ∧ token.kind ≠ .keyword .except := fun token htoken =>
    ⟨Token.isLexeme_of_mem_scan htoken, kind_ne_of_mem_scan hrefine htoken,
      kind_ne_of_mem_scan hexcept htoken⟩
  have hdepth : depth? 0 ((Token.scan 1 inside).map Token.text).flatten = some 0 := by
    rw [map_text_scan_eq_lexemes, depth?_lexemes]
    exact hinside
  have hscan (later : List Token) :
      scanGroup (['{'] ++ inside ++ ['}'] ++ rest) true ((0 : Nat) + 1)
          (Token.scan 1 inside ++ later) =
        scanGroup (['{'] ++ inside ++ ['}'] ++ rest) true ((0 : Nat) + 1) later :=
    scanGroup_nested _ (fun _ => Int.one_pos) hpassed hdepth later
  simp only [expression?, htokens]
  -- the opening brace, the inside one level deep, the closing brace
  change scanGroup _ true ((0 : Nat) + 1) _ = _
  rw [hscan]
  change some (trim (takeBytes (byteSize (['{'] ++ inside)) _).tail) = _
  rw [takeBytes_cut]
  rfl

/-- What counts of a rule in braces are the parts between them. -/
theorem expression?_grouped {keywords : List Keyword} {parts : List Text}
    (hparts : Uses keywords parts) (hrefine : .refine ∉ keywords) (hexcept : .except ∉ keywords) :
    expression? (spaced (['{'] :: parts ++ [['}']])) = some (spaced parts) := by
  have hinside : Braceless (' ' :: leading parts) := by
    constructor
    · rw [← List.count_eq_zero, List.count_cons_of_ne (by decide), hparts.count_leading (.inl rfl)]
    · rw [← List.count_eq_zero, List.count_cons_of_ne (by decide), hparts.count_leading (.inr rfl)]
  have hwithout : ∀ keyword, keyword ∉ keywords →
      containsKeyword (' ' :: leading parts) keyword = false := by
    intro keyword hkeyword
    rw [containsKeyword_cons_space, containsKeyword_leading (hparts.without keyword hkeyword)]
  have hgroup := expression?_group hinside.wellNested (hwithout _ hrefine) (hwithout _ hexcept) []
  rw [trim_cons_space, trim_leading hparts.solid] at hgroup
  rw [spaced_append_cons, leading_cons, trailing_nil]
  simpa using hgroup

/-! ### Selector and filter clause -/

theorem lexemes_clause (keyword : Keyword) (text : Text) :
    lexemes (clause keyword text) = keyword.name :: lexemes text := by
  have hname := lexemes_of_isLexeme (.inl (isWord_name keyword))
  rw [clause]
  split
  next hnil => rw [hnil, hname, lexemes_nil]
  next => rw [lexemes_separated, hname, List.singleton_append]

theorem clause_spaced (keyword : Keyword) {parts : List Text}
    (hparts : ∀ part ∈ parts, Solid part) :
    clause keyword (spaced parts) = spaced (keyword.name :: parts) := by
  cases parts with
  | nil => rw [spaced_nil, clause, if_pos rfl, spaced_singleton]
  | cons part parts =>
    have hne : spaced (part :: parts) ≠ [] := by
      rw [ne_eq, spaced_eq_nil_iff hparts]
      exact List.cons_ne_nil part parts
    rw [clause, if_neg hne, spaced_cons keyword.name, trailing_cons_eq, List.append_assoc]

/-- The rule is split at its first filter keyword, if it has filter keywords of one kind only. -/
theorem splitFilter_spaced {boundary : Keyword} {before after : List Text} (isDefault : Bool)
    (hboundary : boundary ∈ filterKeywords) (hbefore : Without boundary before)
    (hothers : ∀ keyword ∈ filterKeywords, keyword ≠ boundary → Without keyword (before ++ after))
    (hafter : ∀ part ∈ after, Solid part) :
    splitFilter (spaced (before ++ boundary.name :: after)) isDefault =
      (leading before, some (spaced (boundary.name :: after))) := by
  obtain ⟨missing, later, hsplit, hnot⟩ := List.eq_append_cons_of_mem hboundary
  have hpreferred : missing ++ [boundary] <+: filterKeywords :=
    ⟨later, by rw [hsplit, List.append_assoc, List.singleton_append]⟩
  have hmissing : ∀ keyword ∈ missing,
      containsKeyword (spaced (before ++ boundary.name :: after)) keyword = false := by
    intro keyword hkeyword
    have hmem : keyword ∈ filterKeywords := hsplit ▸ List.mem_append_left _ hkeyword
    have hne : keyword ≠ boundary := ne_of_mem_of_not_mem hkeyword hnot
    obtain ⟨hbefore, hafter⟩ := List.forall_mem_append.1 (hothers keyword hmem hne)
    exact containsKeyword_spaced
      (Without.append hbefore (Without.cons (containsKeyword_name hne) hafter))
  rw [splitFilter_of_divides (.filter hpreferred hmissing (cutAtFirst_spaced hbefore after)),
    trim_trailing hafter, clause_spaced boundary hafter]

theorem kind_of_filterToken? {tokens : List Token} {keyword : Keyword} {token : Token}
    (hfilter : filterToken? tokens = some (keyword, token)) :
    token.kind = .keyword keyword ∧ token ∈ tokens := by
  obtain ⟨other, -, hother⟩ := List.exists_of_findSome?_eq_some hfilter
  obtain ⟨found, hfirst, hfound⟩ := Option.map_eq_some_iff.1 hother
  obtain ⟨rfl, rfl⟩ := Prod.mk.inj hfound
  have hkeyword : found.isKeyword other = true := List.find?_some hfirst
  exact ⟨beq_iff_eq.1 hkeyword, List.mem_of_find?_eq_some hfirst⟩

/-- The factor begins at the last `FROM`, or at the last `TO` of a selector without any `FROM`. -/
theorem factor?_leading {lead : Keyword} {before after : List Text}
    (hlead : lead = .fromPeer ∨ lead = .toPeer ∧ Without .fromPeer (before ++ after))
    (hafter : Without lead after) (hsolid : ∀ part ∈ after, Solid part) :
    factor? (leading (before ++ lead.name :: after)) = some (spaced (lead.name :: after)) := by
  have hcut := cutAtLast_leading before hafter
  rw [← clause_spaced lead hsolid, ← trim_leading hsolid, ← trim_cons_space]
  rcases hlead with rfl | ⟨rfl, hfrom⟩
  · exact factor?_of_leads (.fromPeer hcut)
  · obtain ⟨hbefore, hafter⟩ := List.forall_mem_append.1 hfrom
    refine factor?_of_leads (.toPeer (containsKeyword_leading ?_) hcut)
    exact Without.append hbefore (Without.cons (containsKeyword_name (by decide)) hafter)

end Decomposition

/-! ### The whole decomposition -/

/-- A rule with filter keywords of one kind only is split at the first of them, and its factor is
what the selector says last. -/
theorem decompose_of_expression {text : Text} {lead boundary : Keyword}
    (before middle after : List Text) (isDefault : Bool)
    (hexpression : Decomposition.expression? (trim text) =
      some (spaced (before ++ lead.name :: (middle ++ boundary.name :: after))))
    (hlead : lead = .fromPeer ∨ lead = .toPeer ∧ Without .fromPeer (before ++ middle))
    (hboundary : boundary ∈ Decomposition.filterKeywords)
    (hselector : ∀ keyword ∈ Decomposition.filterKeywords, Without keyword (before ++ middle))
    (hafter : ∀ keyword ∈ Decomposition.filterKeywords, keyword ≠ boundary → Without keyword after)
    (hmiddle : Without lead middle) (hsolid : ∀ part ∈ middle ++ after, Solid part) :
    decompose text isDefault =
      .ok ⟨spaced (lead.name :: middle), some (spaced (boundary.name :: after))⟩ := by
  obtain ⟨hsolidMiddle, hsolidAfter⟩ := List.forall_mem_append.1 hsolid
  have hlead_ne : ∀ keyword ∈ Decomposition.filterKeywords, keyword ≠ lead := by
    rintro keyword hkeyword rfl
    rcases hlead with rfl | ⟨rfl, -⟩ <;> exact absurd hkeyword (by decide)
  have hbefore : ∀ keyword ∈ Decomposition.filterKeywords,
      Without keyword (before ++ lead.name :: middle) := by
    intro keyword hkeyword
    obtain ⟨hfirst, hsecond⟩ := List.forall_mem_append.1 (hselector keyword hkeyword)
    exact Without.append hfirst
      (Without.cons (containsKeyword_name (hlead_ne keyword hkeyword)) hsecond)
  have hsplit := Decomposition.splitFilter_spaced isDefault hboundary (hbefore boundary hboundary)
    (fun keyword hkeyword hne =>
      Without.append (hbefore keyword hkeyword) (hafter keyword hkeyword hne)) hsolidAfter
  have hfactor := Decomposition.factor?_leading hlead hmiddle hsolidMiddle
  rw [List.append_assoc, List.cons_append] at hsplit
  simp only [decompose, hexpression, hsplit, hfactor]

end RoutingPolicy
